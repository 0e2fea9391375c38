import PetriLogic.Formula.Reading
import PetriLogic.Proofs.Predicate.Reading

namespace PetriLogic.Formula

open Grammar Rule

/-- A character that neither opens nor closes anything. -/
def isPlain (character : Char) : Bool :=
  character ≠ '(' && character ≠ ')' && character ≠ '"'

/-- The brackets of a text come in pairs, and those between quotes do not count. -/
inductive Balanced : List Char → Prop where
  | nil : Balanced []
  | plain {character : Char} {text : List Char} (isPlain : isPlain character = true)
      (later : Balanced text) : Balanced (character :: text)
  | quoted {text : List Char} (content : String) (later : Balanced text) :
      Balanced ((Text.quoted content).toList ++ text)
  | nested {inner text : List Char} (inside : Balanced inner) (later : Balanced text) :
      Balanced ('(' :: (inner ++ ')' :: text))

namespace Balanced

/-- The brackets of two such texts come in pairs when the texts are joined. -/
theorem append {first second : List Char} (before : Balanced first) (after : Balanced second) :
    Balanced (first ++ second) := by
  induction before with
  | nil => exact after
  | plain isPlain _ inductionHypothesis => exact .plain isPlain inductionHypothesis
  | quoted content _ inductionHypothesis =>
      rw [List.append_assoc]
      exact .quoted content inductionHypothesis
  | nested inside _ _ inductionHypothesis =>
      rw [List.cons_append, List.append_assoc, List.cons_append]
      exact .nested inside inductionHypothesis

/-- A text without brackets and quotes has nothing to pair. -/
theorem of_plain {text : List Char} (plain : text.all isPlain = true) : Balanced text := by
  induction text with
  | nil => exact .nil
  | cons character text inductionHypothesis =>
      obtain ⟨first, others⟩ := Bool.and_eq_true_iff.1 plain
      exact .plain first (inductionHypothesis others)

/-- Spaces have nothing to pair. -/
theorem of_blank {blanks : List Char} (blank : ∀ character ∈ blanks, isSpace character = true) :
    Balanced blanks := by
  refine of_plain (List.all_eq_true.2 fun character member => ?_)
  have space := blank character member
  simp only [isSpace, Bool.or_eq_true, decide_eq_true_eq] at space
  rcases space with ((rfl | rfl) | rfl) | rfl <;> rfl

end Balanced

/-- A quotation takes an escaped character or any other one at a time. -/
def quotedCharacter : Rule Char :=
  (do word "\\"; character "[_]" fun _ => true)
  <|> character "[^ '\"' | '\\\\']" fun found => found ≠ '"' && found ≠ '\\'

/-- An escaped character is taken as the character itself. -/
theorem result_quotedCharacter (character : Char) (rest : List Char) :
    quotedCharacter.result (Text.escape [character] ++ rest) = some (character, rest) := by
  by_cases special : character = '"' ∨ character = '\\'
  · rcases special with rfl | rfl <;> rfl
  · obtain ⟨quote, backslash⟩ := not_or.1 special
    simp [Text.escape, quotedCharacter, result_orElse, result_bind, result_word, after?,
      result_character_cons, quote, backslash, Ne.symm backslash]

/-- A quoted content is taken up to its closing quote. -/
theorem result_quotation (content : String) (rest : List Char) :
    quotation.result ((Text.quoted content).toList ++ rest) = some ((), rest) := by
  have unfolded : quotation =
      (do word "\""; let _ ← many quotedCharacter; word "\"" : Rule Unit) := rfl
  have mark (more : List Char) : (word "\"").result ('"' :: more) = some ((), more) :=
    result_word_append "\"" more
  have closes : quotedCharacter.result ('"' :: rest) = none := rfl
  have middle := result_many
    (Predicate.steps_escape result_quotedCharacter content.toList ('"' :: rest)) closes
  simp only [unfolded, Text.quoted_toList, List.cons_append, List.append_assoc, List.nil_append,
    result_bind, mark, Option.bind_some, middle]

/-- The scanner takes a quotation, a pair of brackets or a single character at a time. -/
def scan (depth : Nat) : Rule Unit :=
  quotation
  <|> (do word "("; balanced depth; word ")")
  <|> (do
    let _ ← character "[^ '(' | ')' | '\"']" fun found =>
      found ≠ '(' && found ≠ ')' && found ≠ '"'
    pure ())

/-- Balanced text is scanned piece by piece. -/
theorem balanced_succ (depth : Nat) :
    balanced (depth + 1) = (do let _ ← many (scan depth); pure ()) := rfl

/-- A plain character is one piece. -/
theorem result_scan_plain {first : Char} (plain : isPlain first = true) (depth : Nat)
    (rest : List Char) : (scan depth).result (first :: rest) = some ((), rest) := by
  simp only [isPlain, Bool.and_eq_true, decide_eq_true_eq] at plain
  obtain ⟨⟨opening, closing⟩, quote⟩ := plain
  simp [scan, quotation, result_orElse, result_bind, result_word, after?, result_character_cons,
    opening, closing, quote, Ne.symm opening, Ne.symm quote]

/-- A quoted content is one piece, whatever brackets it has. -/
theorem result_scan_quoted (depth : Nat) (content : String) (rest : List Char) :
    (scan depth).result ((Text.quoted content).toList ++ rest) = some ((), rest) := by
  rw [scan, result_orElse, result_quotation, Option.some_or]

/-- A pair of brackets around balanced text is one piece. -/
theorem result_scan_nested {depth : Nat} {inner rest : List Char}
    (inside : (balanced depth).result (inner ++ ')' :: rest) = some ((), ')' :: rest)) :
    (scan depth).result ('(' :: (inner ++ ')' :: rest)) = some ((), rest) := by
  simp [scan, quotation, result_orElse, result_bind, result_word, after?, inside]

/-- No piece begins with a closing bracket. -/
theorem result_scan_close (depth : Nat) (rest : List Char) :
    (scan depth).result (')' :: rest) = none := rfl

/-- Balanced text ends at a closing bracket behind its pieces. -/
theorem result_balanced {depth : Nat} {read rest : List Char} {values : List Unit}
    (steps : Steps (scan depth) values (read ++ ')' :: rest) (')' :: rest)) :
    (balanced (depth + 1)).result (read ++ ')' :: rest) = some ((), ')' :: rest) := by
  rw [balanced_succ, result_bind, result_many steps (result_scan_close depth rest)]
  rfl

/-- A balanced text is scanned to its end. -/
theorem steps_scan {read : List Char} (isBalanced : Balanced read) (rest : List Char) (depth : Nat)
    (deep : read.length ≤ depth) : ∃ values, Steps (scan depth) values (read ++ rest) rest := by
  induction isBalanced generalizing rest depth with
  | nil => exact ⟨[], .done rest⟩
  | @plain character text plain _ inductionHypothesis =>
      obtain ⟨values, later⟩ := inductionHypothesis rest depth (Nat.le_of_succ_le deep)
      exact ⟨() :: values, .step (result_scan_plain plain depth _) (Nat.lt_succ_self _) later⟩
  | @quoted text content _ inductionHypothesis =>
      rw [List.length_append] at deep
      obtain ⟨values, later⟩ := inductionHypothesis rest depth (by omega)
      rw [List.append_assoc]
      refine ⟨() :: values, .step (result_scan_quoted depth content _) ?_ later⟩
      simp [Text.quoted_toList]
      omega
  | @nested inner text _ _ insideHypothesis laterHypothesis =>
      simp only [List.length_cons, List.length_append] at deep
      obtain ⟨depth, rfl⟩ : ∃ less, depth = less + 1 := ⟨depth - 1, by omega⟩
      obtain ⟨inside, steps⟩ := insideHypothesis (')' :: (text ++ rest)) depth (by omega)
      obtain ⟨values, later⟩ := laterHypothesis rest (depth + 1) (by omega)
      rw [List.cons_append, List.append_assoc, List.cons_append]
      refine ⟨() :: values, .step (result_scan_nested (result_balanced steps)) ?_ later⟩
      simp
      omega

end PetriLogic.Formula
