import PetriLogic.Formula.Evaluation
import PetriLogic.Proofs.Temporal.Checked

namespace PetriLogic

namespace Formula

/--
The checked evaluation gives nothing when a read on its way leaves a path.
Predicates look nodes up in the net, which is no error for unknown nodes.
-/
def evaluate? (set : PathSet) {kind : NodeKind} (formula : Formula kind) (handle : Handle) :
    Option Bool := do
  if set.net.hasKind kind handle then
    match formula with
    | .truth => return true
    | .falsity => return false
    | .test predicate => return predicate.holds set.net handle
    | .not operand => (operand.evaluate? set handle).map (!·)
    | .and first second =>
        if ← first.evaluate? set handle then second.evaluate? set handle else return false
    | .or first second =>
        if ← first.evaluate? set handle then return true else second.evaluate? set handle
    | .modal next => set.modal? (next.evaluate? set) handle kind
    | .existsUntil hold goal => set.existsUntil? (hold.evaluate? set) (goal.evaluate? set) handle
    | .eventually goal => set.eventually? (goal.evaluate? set) handle
    | .forallUntil hold goal => set.forallUntil? (hold.evaluate? set) (goal.evaluate? set) handle
    | .forallModal later next => set.forallModal? (later.evaluate? set) (next.evaluate? set) handle
    | .existsModal later next => set.existsModal? (later.evaluate? set) (next.evaluate? set) handle
    | .existsNext later => set.existsNext? (later.evaluate? set) handle kind
    | .forallNext later => set.forallNext? (later.evaluate? set) handle kind
    | .possibly goal => set.existsUntil? (fun _ => some true) (goal.evaluate? set) handle
    | .invariantly hold =>
        (set.existsUntil? (fun _ => some true) (fun node => (hold.evaluate? set node).map (!·))
          handle).map (!·)
    | .along hold =>
        (set.eventually? (fun node => (hold.evaluate? set node).map (!·)) handle).map (!·)
  else return false

/-- A formula is looked at only where the node has its kind. -/
theorem checksGuarded {set : PathSet} {checked : Handle → Option Bool} {test : Handle → Bool}
    (checks : Checks checked test) (kind : NodeKind) :
    Checks (fun handle => if set.net.hasKind kind handle then checked handle else some false)
      fun handle => set.net.hasKind kind handle && test handle := by
  intro handle
  cases ofKind : set.net.hasKind kind handle <;> simp [ofKind, checks handle]

/-- The checked evaluation gives the value of the formula, operator by operator. -/
theorem checks (set : PathSet) {kind : NodeKind} (formula : Formula kind) :
    Checks (formula.evaluate? set) (formula.holds set) := by
  have always : Checks (fun _ : Handle => some true) fun _ => true := fun _ => rfl
  induction formula with
  | truth => exact checksGuarded always _
  | falsity => exact checksGuarded (fun _ => rfl) _
  | test predicate => exact checksGuarded (fun _ => rfl) _
  | not operand operandChecks => exact checksGuarded operandChecks.not _
  | and first second firstChecks secondChecks =>
      exact checksGuarded (firstChecks.and secondChecks) _
  | or first second firstChecks secondChecks =>
      exact checksGuarded (firstChecks.or secondChecks) _
  | modal next nextChecks => exact checksGuarded (set.checksModal nextChecks _) _
  | existsUntil hold goal holdChecks goalChecks =>
      exact checksGuarded (set.checksExistsUntil holdChecks goalChecks) _
  | eventually goal goalChecks => exact checksGuarded (set.checksEventually goalChecks) _
  | forallUntil hold goal holdChecks goalChecks =>
      exact checksGuarded (set.checksForallUntil holdChecks goalChecks) _
  | forallModal later next laterChecks nextChecks =>
      exact checksGuarded (set.checksForallModal laterChecks nextChecks) _
  | existsModal later next laterChecks nextChecks =>
      exact checksGuarded (set.checksExistsModal laterChecks nextChecks) _
  | existsNext later laterChecks => exact checksGuarded (set.checksExistsNext laterChecks _) _
  | forallNext later laterChecks => exact checksGuarded (set.checksForallNext laterChecks _) _
  | possibly goal goalChecks =>
      exact checksGuarded (set.checksExistsUntil always goalChecks) _
  | invariantly hold holdChecks =>
      exact checksGuarded (set.checksExistsUntil always holdChecks.not).not _
  | along hold holdChecks => exact checksGuarded (set.checksEventually holdChecks.not).not _

/--
Every read of an evaluation finds its node, whatever the paths and the net are. The walks end within
their path, and so do the loops, also where the anchor is the node after the entry.
-/
theorem evaluation_checked (set : PathSet) {kind : NodeKind} (formula : Formula kind)
    (handle : Handle) :
    formula.evaluate? set handle = some (formula.holds set handle) ∧
      ∀ path : Path,
        0 < path.length ∧ path.walkEnd ≤ path.length ∧ path.firstRoundEnd ≤ path.length ∧
        path.lastEven < path.length ∧
        (path.loop?.isSome ↔ ∃ earlier later, earlier < later ∧ later < path.length ∧
          path.nodes[earlier]? = path.nodes[later]?) ∧
        ∀ loop, (path.loop? = some loop ↔ path.ClosesFirst loop) ∧
          (path.loop? = some loop →
            loop.entry < loop.close ∧ loop.close < path.length ∧
            loop.entry + loop.entry % 2 < path.length) := by
  refine ⟨formula.checks set handle, fun path => ?_⟩
  refine ⟨List.length_pos_iff.2 path.nonempty, path.walkEnd_le, path.firstRoundEnd_le,
    path.lastEvenInRange, Path.loop?_isSome_iff, fun loop => ⟨Path.loop?_eq_some_iff, ?_⟩⟩
  intro closes
  have closesFirst := Path.loop?_eq_some_iff.1 closes
  exact ⟨closesFirst.ordered, closesFirst.inside, Path.anchorInRange closes⟩

end Formula

end PetriLogic
