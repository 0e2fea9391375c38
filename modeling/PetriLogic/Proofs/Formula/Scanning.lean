import PetriLogic.Proofs.Predicate.Acceptance

namespace PetriLogic.Formula

open Grammar Rule

/-- A quotation is a piece of the text that it is taken from. -/
theorem ensures_quotation : quotation.Ensures AnyText fun _ => True := by
  refine .bind (Ensures.word _).anyText fun _ _ => ?_
  refine .bind (.many (.orElse ?_ (Ensures.character _ _).anyText)) fun _ _ => ?_
  · exact .bind (Ensures.word _).anyText fun _ _ => (Ensures.character _ _).anyText
  · exact (Ensures.word _).anyText

/-- Balanced text is a piece of the text that it is taken from. -/
theorem ensures_balanced (depth : Nat) : (balanced depth).Ensures AnyText fun _ => True := by
  induction depth with
  | zero => exact .fail
  | succ depth inductionHypothesis =>
      have nested : (do word "("; balanced depth; word ")" : Rule Unit).Ensures AnyText
          fun _ => True :=
        .bind (Ensures.word _).anyText fun _ _ => .bind inductionHypothesis fun _ _ =>
          (Ensures.word _).anyText
      have scanned : (scan depth).Ensures AnyText fun _ => True :=
        .orElse ensures_quotation (.orElse nested (.map (Ensures.character _ _).anyText
          fun _ _ => trivial))
      exact .map (.many scanned) fun _ _ => trivial

/-- A rule that measures the unread text is, on this text, the rule with its length. -/
theorem result_measured (text : List Char) :
    Rule.result (fun text => spelled (balanced (text.left + 1)) text) text =
      (spelled (balanced (text.length + 1))).result text := rfl

/-- The text before what is left is accepted as a predicate of its own. -/
theorem exists_of_result_predicate {text rest : List Char} {tested : Predicate}
    (reads : Formula.predicate.result text = some (tested, rest)) :
    ∃ read, text = read ++ rest ∧ Predicate.read (String.ofList read) = .ok tested := by
  obtain ⟨read, spells, accepted⟩ := exists_of_result_admitted reads
  rw [result_measured] at spells
  refine ⟨read, (ensures_balanced _).spelled spells, ?_⟩
  cases attempted : Predicate.read (String.ofList read) with
  | error fault =>
      rw [attempted] at accepted
      cases accepted
  | ok value =>
      rw [attempted] at accepted
      cases accepted
      rfl

/-- A predicate is read up to a bracket exactly when the text before the bracket is accepted. -/
theorem result_predicate_iff {text rest : List Char} {tested : Predicate} :
    Formula.predicate.result text = some (tested, ')' :: rest) ↔
      ∃ read, text = read ++ ')' :: rest ∧ Predicate.read (String.ofList read) = .ok tested := by
  refine ⟨exists_of_result_predicate, ?_⟩
  rintro ⟨read, rfl, accepted⟩
  have isBalanced := (Predicate.accepted accepted).2
  rw [String.toList_ofList] at isBalanced
  obtain ⟨values, steps⟩ := steps_scan isBalanced (')' :: rest) (read ++ ')' :: rest).length
    (by simp)
  have spells := result_spelled (result_balanced steps)
  rw [← result_measured] at spells
  exact result_admitted spells (by rw [accepted]; rfl)

/-- A predicate is read up to the bracket behind it, with the spaces between them. -/
theorem result_tested {tested : Predicate} {text rest : List Char}
    (laid : Laid (tested.tokens ++ [")"]) text rest) :
    Formula.predicate.result text = some (tested.normal, ")".toList ++ rest) := by
  obtain ⟨middle, laidTokens, laidLast⟩ := laid.split
  cases laidLast with
  | @token _ blanks behind _ _ blank done =>
      cases done
      obtain ⟨read, rfl, again⟩ := laidTokens.exists_read
      refine result_predicate_iff.2 ⟨read ++ blanks, (List.append_assoc ..).symm, ?_⟩
      apply Predicate.read_of_layout
      rw [String.toList_ofList]
      exact ⟨blanks, blank, again blanks⟩

end PetriLogic.Formula
