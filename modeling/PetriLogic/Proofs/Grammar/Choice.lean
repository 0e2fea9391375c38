import PetriLogic.Proofs.Grammar.Layout
import Mathlib.Data.List.Zip

namespace PetriLogic.Grammar

variable {Value : Type}

/-- The rules are tried one after the other. -/
def choice : List (Rule Value) → Rule Value
  | [] => Rule.fail
  | [rule] => rule
  | rule :: other :: others => rule <|> choice (other :: others)

/-- A choice reads with its first rule, or else with the others. -/
theorem result_choice_cons (rule : Rule Value) (rules : List (Rule Value)) (text : List Char) :
    (choice (rule :: rules)).result text = (rule.result text).or ((choice rules).result text) := by
  match rules with
  | [] => exact (Option.or_none).symm
  | _ :: _ => exact Rule.result_orElse rule _ text

/-- A choice of rules that all refuse a text refuses it. -/
theorem result_choice_eq_none {rules : List (Rule Value)} {text : List Char}
    (missed : ∀ rule ∈ rules, rule.result text = none) : (choice rules).result text = none := by
  induction rules with
  | nil => rfl
  | cons rule rules inductionHypothesis =>
      obtain ⟨first, later⟩ := List.forall_mem_cons.1 missed
      rw [result_choice_cons, first, inductionHypothesis later, Option.or_none]

/-- A choice reads like one of its rules where the others do not read anything. -/
theorem result_choice {before after : List (Rule Value)} {rule : Rule Value} {text : List Char}
    (missed : ∀ other ∈ before ++ after, other.result text = none) :
    (choice (before ++ rule :: after)).result text = rule.result text := by
  induction before with
  | nil =>
      have behind : (choice after).result text = none := result_choice_eq_none missed
      rw [List.nil_append, result_choice_cons, behind, Option.or_none]
  | cons other before inductionHypothesis =>
      obtain ⟨first, later⟩ := List.forall_mem_cons.1 missed
      rw [List.cons_append, result_choice_cons, first, Option.none_or, inductionHypothesis later]

/-- Two words differ at a place that both of them have. -/
def Apart (first second : String) : Prop :=
  (first.toList.zip second.toList).any (fun places => places.1 ≠ places.2) = true

instance (first second : String) : Decidable (Apart first second) :=
  inferInstanceAs (Decidable (_ = true))

/-- Words that differ do so both ways. -/
theorem Apart.symm {first second : String} (apart : Apart first second) :
    Apart second first := by
  rw [Apart, ← List.zip_swap, List.any_map]
  simpa only [Apart, Function.comp_def, Prod.fst_swap, Prod.snd_swap, ne_comm] using apart

/-- A word is not found where a different one stands. -/
theorem after?_of_apart {first second : List Char}
    (apart : (first.zip second).any (fun places => places.1 ≠ places.2) = true) (text : List Char) :
    after? first (second ++ text) = none := by
  induction first generalizing second with
  | nil => simp at apart
  | cons expected first inductionHypothesis =>
      cases second with
      | nil => simp at apart
      | cons found second =>
          rw [List.cons_append, after?]
          split
          · rename_i same
            exact inductionHypothesis (by simpa [same] using apart)
          · rfl

/-- A word is refused where a different one stands. -/
theorem Apart.result_word {first second : String} (apart : Apart first second) (text : List Char) :
    (word first).result (second.toList ++ text) = none := by
  rw [Grammar.result_word, after?_of_apart apart]
  rfl

/-- One of some names stands before what the rule reads. -/
def named (names : List String) (rule : Rule Value) : Rule Value := do
  choice (names.map word)
  rule

/-- Names are refused where a different one stands. -/
theorem result_named_eq_none {names : List String} {name : String}
    (apart : ∀ other ∈ names, Apart other name) (rule : Rule Value) (text : List Char) :
    (named names rule).result (name.toList ++ text) = none := by
  rw [named, Rule.result_bind, result_choice_eq_none, Option.bind_none]
  simp only [List.forall_mem_map]
  exact fun other member => (apart other member).result_word text

/-- One of the names is taken, and the rule reads behind it. -/
theorem result_named {names : List String} (apart : names.Pairwise Apart) {name : String}
    (isName : name ∈ names) (rule : Rule Value) (text : List Char) :
    (named names rule).result (name.toList ++ text) = rule.result text := by
  obtain ⟨before, after, rfl⟩ := List.append_of_mem isName
  rw [List.perm_middle.pairwise_iff Apart.symm, List.pairwise_cons] at apart
  have missed : ∀ other ∈ before.map word ++ after.map word,
      other.result (name.toList ++ text) = none := by
    rw [← List.map_append, List.forall_mem_map]
    exact fun other member => (apart.1 other member).symm.result_word text
  rw [named, Rule.result_bind, List.map_append, List.map_cons, result_choice missed,
    result_word_append, Option.bind_some]

/-- The choice among named rules is settled by the name when no name begins with another one. -/
theorem result_choice_named {entries : List (List String × Rule Value)}
    (apart : (entries.flatMap Prod.fst).Pairwise Apart) {names : List String} {rule : Rule Value}
    (entry : (names, rule) ∈ entries) {name : String} (isName : name ∈ names)
    (text : List Char) :
    (choice (entries.map fun entry => named entry.1 entry.2)).result (name.toList ++ text) =
      rule.result text := by
  obtain ⟨before, after, rfl⟩ := List.append_of_mem entry
  rw [(List.perm_middle.flatMap_right Prod.fst).pairwise_iff Apart.symm, List.flatMap_cons,
    List.pairwise_append] at apart
  obtain ⟨own, _, others⟩ := apart
  have missed : ∀ other ∈ (before ++ after).map fun entry => named entry.1 entry.2,
      other.result (name.toList ++ text) = none := by
    rw [List.forall_mem_map]
    exact fun other member => result_named_eq_none (fun otherName otherMember =>
      (others name isName otherName (List.mem_flatMap.2 ⟨other, member, otherMember⟩)).symm) _ _
  rw [List.map_append] at missed
  rw [List.map_append, List.map_cons, result_choice missed, result_named own isName]

end PetriLogic.Grammar
