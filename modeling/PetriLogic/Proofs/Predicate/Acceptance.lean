import PetriLogic.Proofs.Formula.Bracketing
import PetriLogic.Proofs.Grammar.Postcondition
import PetriLogic.Proofs.Predicate.Precedence

namespace PetriLogic

open Grammar Rule
open Formula (Balanced isPlain)

namespace Text

/-- Texts can be escaped before or after they are joined. -/
theorem escape_append (first second : List Char) :
    escape (first ++ second) = escape first ++ escape second := by
  induction first with
  | nil => rfl
  | cons character first inductionHypothesis =>
      rw [List.cons_append, escape_cons, inductionHypothesis, escape_cons character first,
        List.append_assoc]

/-- What stands between the quotes of a quoted text. -/
def Escaped (text : List Char) : Prop :=
  ∃ content, text = escape content

instance : Joinable Escaped where
  nil := ⟨[], rfl⟩
  append := by
    rintro _ _ ⟨first, rfl⟩ ⟨second, rfl⟩
    exact ⟨first ++ second, (escape_append first second).symm⟩

end Text

namespace Formula

instance : Joinable Balanced := ⟨.nil, fun _ _ => .append⟩

/-- A balanced text between brackets is balanced. -/
theorem balanced_of_closing {opening text : List Char} (isOpening : opening = "(".toList)
    (closing : Closing Balanced ")" text) : Balanced (opening ++ text) := by
  obtain ⟨inside, balanced, rfl⟩ := closing
  rw [isOpening]
  exact .nested balanced .nil

end Formula

namespace Predicate

/-- A word without brackets and quotes is balanced. -/
theorem ensures_word {name : String} (plain : name.toList.all isPlain = true) :
    (word name).Ensures Balanced fun _ => True :=
  .word_mem (.of_plain plain)

/-- Spaces are balanced. -/
theorem ensures_spaces : spaces.Ensures Balanced fun _ => True :=
  Ensures.spaces.imp (fun _ => .of_blank) fun _ _ => trivial

/-- An escape sequence is read as an escaped text. -/
theorem ensures_escape {name : String} (isEscape : Text.Escaped name.toList) (value : Char) :
    (do word name; pure value : Rule Char).Ensures Text.Escaped fun _ => True :=
  .map (.word_mem isEscape) fun _ _ => trivial

/-- A character between quotes is read from an escaped text. -/
theorem ensures_quotedCharacter : quotedCharacter.Ensures Text.Escaped fun _ => True := by
  refine .orElse (ensures_escape ⟨['\\'], rfl⟩ '\\') ?_
  refine .orElse (ensures_escape ⟨['"'], rfl⟩ '"') ?_
  refine (Ensures.character _ _).imp ?_ fun _ _ => trivial
  rintro _ ⟨found, admitted, rfl⟩
  simp only [Bool.and_eq_true, decide_eq_true_eq] at admitted
  exact ⟨[found], by simp [Text.escape, admitted]⟩

/-- A quoted text is balanced, whatever stands between its quotes. -/
theorem ensures_quotedText : quotedText.Ensures Balanced fun _ => True := by
  have inside := Ensures.many ensures_quotedCharacter
  refine .seq (.word "\"") (fun _ _ => .inside inside fun characters _ =>
    .closer "\"" trivial) ?_
  rintro _ _ rfl ⟨_, ⟨content, rfl⟩, rfl⟩
  have balanced : Balanced ((Text.quoted (String.ofList content)).toList ++ []) := .quoted _ .nil
  rwa [List.append_nil, Text.quoted_toList, String.toList_ofList] at balanced

/-- A value between brackets, with spaces around it. -/
theorem ensures_bracketed {Value : Type} {rule : Rule Value} {holds : Value → Prop}
    (ensures : rule.Ensures Balanced holds) :
    (do word "("; spaces; let value ← rule; spaces; word ")"; pure value :
      Rule Value).Ensures Balanced holds := by
  refine .seq (.word "(") (fun _ _ => ?_) fun _ _ => Formula.balanced_of_closing
  refine .inside ensures_spaces fun _ _ => ?_
  refine .inside ensures fun value held => ?_
  refine .inside ensures_spaces fun _ _ => ?_
  exact .closer ")" held

/-- An argument between brackets is balanced. -/
theorem ensures_argument : argument.Ensures Balanced fun _ => True :=
  .bind ensures_spaces fun _ _ => ensures_bracketed ensures_quotedText

/-- The name of a kind of transitions is balanced. -/
theorem ensures_transitionKind : transitionKind.Ensures Balanced fun _ => True := by
  have ensures {name : String} (plain : name.toList.all isPlain = true) (value : TransitionKind) :
      (do word name; pure value : Rule TransitionKind).Ensures Balanced fun _ => True :=
    .map (ensures_word plain) fun _ _ => trivial
  exact .orElse (ensures (by decide) .app) (ensures (by decide) .control)

/-- Operands are grouped when each of them is. -/
theorem areGrouped_iff {operands : List Predicate} :
    areGrouped operands = true ↔ ∀ operand ∈ operands, operand.isGrouped = true := by
  induction operands with
  | nil => simp [areGrouped]
  | cons operand operands inductionHypothesis =>
      rw [areGrouped, Bool.and_eq_true, inductionHypothesis, List.forall_mem_cons]

/-- Joining at least one member makes no group of one. -/
theorem isGrouped_join {gather : List Predicate → Predicate} {operands : List Predicate}
    (group : (gather operands).isGrouped =
      (decide (2 ≤ operands.length) && areGrouped operands))
    (nonempty : operands ≠ []) (each : ∀ operand ∈ operands, operand.isGrouped = true) :
    (join gather operands).isGrouped = true := by
  match operands with
  | [] => exact absurd rfl nonempty
  | [operand] => exact each operand List.mem_cons_self
  | first :: second :: others =>
      show (gather (first :: second :: others)).isGrouped = true
      rw [group, areGrouped_iff.2 each]
      rfl

/-- A joint without brackets and quotes is balanced. -/
theorem ensures_joined {joint : String} (plain : joint.toList.all isPlain = true) :
    (joined joint).Ensures Balanced fun _ => True :=
  .bind ensures_spaces fun _ _ =>
    .bind (ensures_word plain) fun _ _ => ensures_spaces

section

variable {rule : Rule Predicate} (ensures : rule.Ensures Balanced (·.isGrouped = true))

include ensures

/-- A conjunction of grouped operands is grouped, and its text is balanced. -/
theorem ensures_conjunction : (conjunction rule).Ensures Balanced (·.isGrouped = true) := by
  have between : (joined "&&").Ensures Balanced fun _ => True := ensures_joined (by decide)
  have members := Ensures.separated ensures between
  refine .map members fun operands each => ?_
  exact isGrouped_join (by rw [isGrouped]) each.1 each.2

/-- A disjunction of grouped operands is grouped, and its text is balanced. -/
theorem ensures_disjunction : (disjunction rule).Ensures Balanced (·.isGrouped = true) := by
  have between : (joined "||").Ensures Balanced fun _ => True := ensures_joined (by decide)
  have members := Ensures.separated (ensures_conjunction ensures) between
  refine .map members fun operands each => ?_
  exact isGrouped_join (by rw [isGrouped]) each.1 each.2

end

section

variable {name : String} (plain : name.toList.all isPlain = true)

include plain

/-- A constant is grouped, and its word is balanced. -/
theorem ensures_constant {value : Predicate} (grouped : value.isGrouped = true) :
    (do word name; pure value : Rule Predicate).Ensures Balanced (·.isGrouped = true) :=
  .map (ensures_word plain) fun _ _ => grouped

/-- A test for a label is grouped, and its text is balanced. -/
theorem ensures_labelled {make : String → Predicate}
    (grouped : ∀ label, (make label).isGrouped = true) :
    (do word name; let label ← argument; pure (make label) :
      Rule Predicate).Ensures Balanced (·.isGrouped = true) :=
  .bind (ensures_word plain) fun _ _ =>
    .map ensures_argument fun label _ => grouped label

/-- A comparison is grouped, and its text is balanced. -/
theorem ensures_compared {Value : Type} {rule : Rule Value} {make : Value → Predicate}
    (ensures : rule.Ensures Balanced fun _ => True)
    (grouped : ∀ value, (make value).isGrouped = true) :
    (do word name; spaces; word "=="; spaces; let value ← rule; pure (make value) :
      Rule Predicate).Ensures Balanced (·.isGrouped = true) := by
  refine .bind (ensures_word plain) fun _ _ => ?_
  refine .bind ensures_spaces fun _ _ => ?_
  refine .bind (ensures_word (by decide)) fun _ _ => ?_
  refine .bind ensures_spaces fun _ _ => ?_
  exact .map ensures fun value _ => grouped value

end

/-- Atoms are balanced, and no group with fewer than two members is ever built. -/
theorem ensures_atom (depth : Nat) :
    (atom depth).Ensures Balanced (·.isGrouped = true) := by
  induction depth with
  | zero => exact .fail
  | succ depth inductionHypothesis =>
      -- The alternatives stand in the order of the grammar. Only the last two contain atoms.
      refine .orElse (ensures_constant (by decide) rfl) ?_
      refine .orElse (ensures_constant (by decide) rfl) ?_
      refine .orElse (ensures_compared (by decide) ensures_quotedText fun _ => rfl) ?_
      refine .orElse (ensures_compared (by decide) ensures_transitionKind fun _ => rfl) ?_
      refine .orElse (ensures_labelled (by decide) fun _ => rfl) ?_
      refine .orElse (ensures_labelled (by decide) fun _ => rfl) ?_
      refine .orElse (ensures_labelled (by decide) fun _ => rfl) ?_
      refine .orElse (ensures_labelled (by decide) fun _ => rfl) ?_
      refine .orElse (ensures_constant (by decide) rfl) ?_
      refine .orElse (ensures_constant (by decide) rfl) ?_
      refine .orElse ?negated (ensures_bracketed (ensures_disjunction inductionHypothesis))
      case negated =>
        refine .bind (ensures_word (by decide)) fun _ _ => ?_
        refine .bind ensures_spaces fun _ _ => ?_
        exact .map inductionHypothesis fun _ grouped => grouped

/-- Predicates are read as grouped ones from balanced texts. -/
theorem ensures_predicate :
    Predicate.predicate.Ensures Balanced (·.isGrouped = true) := by
  intro text value rest reads
  rw [result_predicate] at reads
  have ensures := ensures_disjunction (ensures_atom (text.length + 1))
  exact Ensures.bind ensures_spaces (fun _ _ => .bind ensures fun _ grouped =>
    .map ensures_spaces fun _ _ => grouped) text value rest reads

/-- A text is accepted when the grammar reads all of it. -/
theorem read_ok_iff {source : String} {predicate : Predicate} :
    Predicate.read source = .ok predicate ↔
      Predicate.predicate.result source.toList = some (predicate, []) :=
  mapError_read_ok_iff

/-- Every accepted text is balanced and gives a predicate with proper groups only. -/
theorem accepted {source : String} {predicate : Predicate}
    (read : Predicate.read source = .ok predicate) :
    predicate.isGrouped = true ∧ Balanced source.toList :=
  ensures_predicate.whole (read_ok_iff.1 read)

/-- The text of a grouped predicate is read as this predicate. -/
theorem read_display {predicate : Predicate} (grouped : predicate.isGrouped = true) :
    Predicate.read predicate.display = .ok predicate := by
  have laid := predicate.laidOut []
  rw [List.append_nil] at laid
  rw [read_of_layout ⟨[], List.forall_mem_nil _, laid⟩, normal_of_isGrouped grouped]

end Predicate

end PetriLogic
