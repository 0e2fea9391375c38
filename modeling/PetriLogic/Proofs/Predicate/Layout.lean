import PetriLogic.Predicate.Display
import PetriLogic.Proofs.Predicate.Reading

namespace PetriLogic

open Grammar

/-- The joint stands before each text but the first one. -/
theorem intercalate_cons (joint first : String) (others : List String) :
    (joint.intercalate (first :: others)).toList =
      first.toList ++ others.flatMap fun other => joint.toList ++ other.toList := by
  induction others generalizing first with
  | nil => simp
  | cons second others inductionHypothesis =>
      simp only [String.intercalate_cons_cons, String.toList_append, inductionHypothesis,
        List.flatMap_cons, List.append_assoc]

/-- The blank is a space. -/
theorem isSpace_blank : isSpace ' ' = true := rfl

namespace Predicate

/-- Every predicate has a token at least. -/
theorem exists_tokens (predicate : Predicate) :
    ∃ token others, predicate.tokens = token :: others := by
  match predicate with
  | .all [operand] | .any [operand] => exact exists_tokens operand
  | .all [] | .any [] | .all (_ :: _ :: _) | .any (_ :: _ :: _) => exact ⟨_, _, rfl⟩
  | .not _ | .truth | .falsity | .id _ | .tag _ | .reads _ | .writes _ | .erases _ | .kind _
  | .terminal | .initial => exact ⟨_, _, rfl⟩

/-- The text of a predicate is a layout of its tokens. -/
def LaidOut (predicate : Predicate) : Prop :=
  ∀ rest, Laid predicate.tokens (predicate.display.toList ++ rest) rest

/-- A blank may stand in front of a predicate. -/
theorem LaidOut.space {predicate : Predicate} (laidOut : LaidOut predicate) (rest : List Char) :
    Laid predicate.tokens (' ' :: (predicate.display.toList ++ rest)) rest := by
  obtain ⟨token, others, same⟩ := exists_tokens predicate
  have laid := laidOut rest
  rw [same] at laid ⊢
  exact laid.space isSpace_blank

/-- The operands are displayed one by one. -/
theorem displayEach_eq_map (operands : List Predicate) :
    displayEach operands = operands.map display := by
  induction operands with
  | nil => rfl
  | cons operand operands inductionHypothesis =>
      rw [displayEach, inductionHypothesis, List.map_cons]

section

variable {joint written : String} {operands : List Predicate}

/-- Each member stands behind the joint with a space on both sides of it. -/
theorem laid_joined (spaced : written.toList = ' ' :: (joint.toList ++ [' ']))
    (laidOut : ∀ operand ∈ operands, LaidOut operand) (rest : List Char) :
    Laid ((operands.map tokens).flatMap (joint :: ·))
      ((operands.map display).flatMap (fun member => written.toList ++ member.toList) ++ rest)
      rest := by
  induction operands with
  | nil => exact .done rest
  | cons operand operands inductionHypothesis =>
      have later := inductionHypothesis fun other member =>
        laidOut other (List.mem_cons_of_mem _ member)
      have member := (laidOut operand List.mem_cons_self).space
        ((operands.map display).flatMap (fun member => written.toList ++ member.toList) ++ rest)
      have behind := ((member.append later).flush joint).space isSpace_blank
      simpa only [List.map_cons, List.flatMap_cons, spaced, List.cons_append, List.append_assoc,
        List.nil_append] using behind

/-- A group is laid out like its operands, between brackets. -/
theorem laid_bracketed {neutral : String} (spaced : written.toList = ' ' :: (joint.toList ++ [' ']))
    (laidOut : ∀ operand ∈ operands, LaidOut operand) (rest : List Char) :
    Laid (bracketed neutral joint (operands.map tokens))
      ((group neutral written (operands.map display)).toList ++ rest) rest := by
  match operands with
  | [] => exact (Laid.done rest).flush neutral
  | [operand] => exact laidOut operand List.mem_cons_self rest
  | first :: second :: others =>
      have behind := laid_joined spaced (fun other member =>
        laidOut other (List.mem_cons_of_mem _ member)) (")".toList ++ rest)
      have members := (laidOut first List.mem_cons_self _).append behind
      have whole := (members.append ((Laid.done rest).flush ")")).flush "("
      have text : (group neutral written ((first :: second :: others).map display)).toList ++ rest =
          "(".toList ++ (first.display.toList ++ (((second :: others).map display).flatMap
            (fun member => written.toList ++ member.toList) ++ (")".toList ++ rest))) := by
        simp only [group, List.map_cons, String.toList_append, intercalate_cons, List.append_assoc]
      rw [text]
      exact whole

end

/-- A symbol with a quoted argument is laid out as its tokens. -/
theorem laid_argument {symbol opening : String} (joined : opening.toList = symbol.toList ++ ['('])
    (label : String) (rest : List Char) :
    Laid [symbol, "(", Text.quoted label, ")"]
      ((opening ++ Text.quoted label ++ ")").toList ++ rest) rest := by
  have argument := (((Laid.done rest).flush ")").flush (Text.quoted label)).flush "("
  have whole := argument.flush symbol
  simpa [joined] using whole

/-- A comparison is laid out as its tokens. -/
theorem laid_compared {symbol opening : String}
    (spaced : opening.toList = symbol.toList ++ [' ', '=', '=', ' ']) (value : String)
    (rest : List Char) :
    Laid [symbol, "==", value] ((opening ++ value).toList ++ rest) rest := by
  have compared := (((Laid.done rest).flush value).space isSpace_blank).flush "=="
  have whole := (compared.space isSpace_blank).flush symbol
  simpa [spaced] using whole

mutual

/-- The text of every predicate is a layout of its tokens. -/
theorem laidOut (predicate : Predicate) : LaidOut predicate := by
  intro rest
  match predicate with
  | .all operands | .any operands =>
      rw [tokens, display, tokensEach_eq_map, displayEach_eq_map]
      exact laid_bracketed rfl (laidOutEach operands) rest
  | .not operand =>
      have whole := (((laidOut operand _).append ((Laid.done rest).flush ")")).flush "(").flush "!"
      rw [tokens, display]
      simpa using whole
  | .tag label | .reads label | .writes label | .erases label => exact laid_argument rfl label rest
  | .id name => exact laid_compared rfl (Text.quoted name) rest
  | .kind wanted => exact laid_compared rfl wanted.name rest
  | .truth | .falsity | .terminal | .initial => exact (Laid.done rest).flush _

/-- The texts of operands are layouts of their tokens. -/
theorem laidOutEach (operands : List Predicate) : ∀ operand ∈ operands, LaidOut operand := by
  match operands with
  | [] => simp
  | operand :: operands => exact List.forall_mem_cons.2 ⟨laidOut operand, laidOutEach operands⟩

end

end Predicate

end PetriLogic
