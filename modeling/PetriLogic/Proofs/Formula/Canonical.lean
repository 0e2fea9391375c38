import PetriLogic.Proofs.Formula.Reading

namespace PetriLogic.Formula

open Grammar Rule

/-- A predicate in a formula is read as a grouped one. -/
theorem ensures_predicate : Formula.predicate.Ensures AnyText (·.isGrouped = true) := by
  intro text tested rest reads
  obtain ⟨read, same, accepted⟩ := exists_of_result_predicate reads
  exact ⟨(Predicate.accepted accepted).1, read, trivial, same⟩

section

variable {kind first second : NodeKind} {left : Rule (Formula first)}
  {right : Rule (Formula second)}

/-- A test in a formula is read as a grouped one. -/
theorem ensures_ofTest : (ofTest : Rule (Formula kind)).Ensures AnyText (·.isGrouped = true) := by
  refine .bind Ensures.spaces.anyText fun _ _ => ?_
  refine .bind (Ensures.word _).anyText fun _ _ => ?_
  refine .bind ensures_predicate fun tested grouped => ?_
  exact .map (Ensures.word _).anyText fun _ _ => grouped

/-- An operator with a grouped operand is read as a grouped formula. -/
theorem ensures_ofOne (ensures : left.Ensures AnyText (·.isGrouped = true))
    {make : Formula first → Formula kind}
    (same : ∀ operand, (make operand).isGrouped = operand.isGrouped) :
    (ofOne left make).Ensures AnyText (·.isGrouped = true) := by
  have only : (oneOperand left).Ensures AnyText (·.isGrouped = true) := by
    refine .bind Ensures.spaces.anyText fun _ _ => ?_
    refine .bind (Ensures.word _).anyText fun _ _ => ?_
    refine .bind ensures fun operand grouped => ?_
    exact .map (Ensures.word _).anyText fun _ _ => grouped
  exact .map only fun operand grouped => (same operand).trans grouped

/-- An operator with two grouped operands is read as a grouped formula. -/
theorem ensures_ofTwo (ensuresLeft : left.Ensures AnyText (·.isGrouped = true))
    (ensuresRight : right.Ensures AnyText (·.isGrouped = true))
    {make : Formula first → Formula second → Formula kind}
    (same : ∀ before after, (make before after).isGrouped =
      (before.isGrouped && after.isGrouped)) :
    (ofTwo left right make).Ensures AnyText (·.isGrouped = true) := by
  have both : (twoOperands left right).Ensures AnyText
      fun operands => (operands.1.isGrouped && operands.2.isGrouped) = true := by
    refine .bind Ensures.spaces.anyText fun _ _ => ?_
    refine .bind (Ensures.word _).anyText fun _ _ => ?_
    refine .bind ensuresLeft fun before groupedBefore => ?_
    refine .bind (Ensures.word _).anyText fun _ _ => ?_
    refine .bind ensuresRight fun after groupedAfter => ?_
    exact .map (Ensures.word _).anyText fun _ _ =>
      Bool.and_eq_true_iff.2 ⟨groupedBefore, groupedAfter⟩
  exact .map both fun operands grouped => (same operands.1 operands.2).trans grouped

end

/-- Every operator keeps the predicates of its operands as they were read. -/
theorem ensures_operators {depth : Nat}
    (ensures : ∀ kind, (spaced depth kind).Ensures AnyText (·.isGrouped = true))
    (kind : NodeKind) :
    ∀ entry ∈ operators depth kind, entry.2.Ensures AnyText (·.isGrouped = true) := by
  have own := ensures kind
  have other := ensures kind.other
  simp only [operators, List.forall_mem_cons]
  exact ⟨.pure rfl, .pure rfl, ensures_ofTest, ensures_ofOne own fun _ => rfl,
    ensures_ofTwo own own fun _ _ => rfl, ensures_ofTwo own own fun _ _ => rfl,
    ensures_ofOne other fun _ => rfl, ensures_ofTwo own own fun _ _ => rfl,
    ensures_ofTwo own other fun _ _ => rfl, ensures_ofOne own fun _ => rfl,
    ensures_ofOne own fun _ => rfl, ensures_ofTwo own own fun _ _ => rfl,
    ensures_ofTwo own other fun _ _ => rfl, ensures_ofOne own fun _ => rfl,
    ensures_ofOne own fun _ => rfl, ensures_ofOne own fun _ => rfl,
    ensures_ofOne own fun _ => rfl, List.forall_mem_nil _⟩

/-- Every formula is read as a grouped one. -/
theorem ensures_spaced (depth : Nat) (kind : NodeKind) :
    (spaced depth kind).Ensures AnyText (·.isGrouped = true) := by
  induction depth generalizing kind with
  | zero => exact .fail
  | succ depth inductionHypothesis =>
      have chosen : (operator (spaced depth) kind).Ensures AnyText (·.isGrouped = true) := by
        rw [operator_eq_choice]
        refine .choice (List.forall_mem_map.2 fun entry member => ?_)
        exact .named (ensures_operators inductionHypothesis kind entry member)
      refine .bind Ensures.spaces.anyText fun _ _ => ?_
      refine .bind chosen fun formula grouped => ?_
      exact .map Ensures.spaces.anyText fun _ _ => grouped

/-- A text is accepted when the grammar reads all of it. -/
theorem read_ok_iff {kind : NodeKind} {source : String} {formula : Formula kind} :
    Formula.read kind source = .ok formula ↔
      (spaced (source.toList.length + 1) kind).result source.toList = some (formula, []) := by
  rw [← result_formula]
  exact mapError_read_ok_iff

/-- Accepted formulas are grouped. -/
theorem accepted {kind : NodeKind} {source : String} {formula : Formula kind}
    (read : Formula.read kind source = .ok formula) : formula.isGrouped = true :=
  ((ensures_spaced _ kind).whole (read_ok_iff.1 read)).1

/-- The text of a grouped formula is read as this formula. -/
theorem read_display {kind : NodeKind} {formula : Formula kind}
    (grouped : formula.isGrouped = true) : Formula.read kind formula.display = .ok formula := by
  obtain ⟨tokens, spells, laid⟩ := formula.laidOut
  have written := laid []
  rw [List.append_nil] at written
  rw [read_of_layout spells ⟨[], List.forall_mem_nil _, written⟩, normal_of_isGrouped grouped]

/--
Whatever text was read, every group in the result has at least two members, and the result is
read back from the text that it is written as.
-/
theorem reading_canonical :
    (∀ (source : String) (predicate : Predicate), Predicate.read source = .ok predicate →
      predicate.isGrouped = true ∧ Predicate.read predicate.display = .ok predicate) ∧
    ∀ (kind : NodeKind) (source : String) (formula : Formula kind),
      Formula.read kind source = .ok formula →
        formula.isGrouped = true ∧ Formula.read kind formula.display = .ok formula := by
  constructor
  · intro source predicate read
    have grouped := (Predicate.accepted read).1
    exact ⟨grouped, Predicate.read_display grouped⟩
  · intro kind source formula read
    have grouped := accepted read
    exact ⟨grouped, read_display grouped⟩

/-- Needless brackets and spaces and the second name of an operator do not come back. -/
theorem redundant_read :
    Predicate.read "((id ==\"(\") )&&(TRUE||! terminal)" =
      .ok (.all [.id "(", .any [.truth, .not .terminal]]) ∧
    Predicate.read "(id == \"(\" && (TRUE || !(terminal)))" =
      .ok (.all [.id "(", .any [.truth, .not .terminal]]) ∧
    Formula.read .transition " TRANSITION_TARGET( EV(NF( ((terminal))||initial&&TRUE ) ))" =
      .ok (.modal (.eventually (.test (.any [.terminal, .all [.initial, .truth]])))) ∧
    Formula.read .transition "MODAL(EV(NF((terminal || (initial && TRUE)))))" =
      .ok (.modal (.eventually (.test (.any [.terminal, .all [.initial, .truth]])))) := by
  have tested : Predicate.read "((id ==\"(\") )&&(TRUE||! terminal)" =
      .ok (.all [.id "(", .any [.truth, .not .terminal]]) :=
    Predicate.read_ok_iff.2 (by decide +kernel)
  have wanted : Formula.read .transition
      " TRANSITION_TARGET( EV(NF( ((terminal))||initial&&TRUE ) ))" =
      .ok (.modal (.eventually (.test (.any [.terminal, .all [.initial, .truth]])))) :=
    read_ok_iff.2 (by decide +kernel)
  exact ⟨tested, (reading_canonical.1 _ _ tested).2, wanted,
    (reading_canonical.2 _ _ _ wanted).2⟩

end PetriLogic.Formula
