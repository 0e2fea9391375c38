import PetriLogic.Predicate.Reading
import PetriLogic.Proofs.Grammar.Layout
import PetriLogic.Proofs.Predicate.Normal

namespace PetriLogic

open Grammar Rule

/-- Characters are escaped one by one. -/
theorem Text.escape_cons (character : Char) (rest : List Char) :
    escape (character :: rest) = escape [character] ++ escape rest := by
  simp only [escape]
  split <;> rfl

/-- A quoted text is the escaped text between quotes. -/
theorem Text.quoted_toList (text : String) :
    (quoted text).toList = '"' :: (escape text.toList ++ ['"']) := by
  simp [quoted, escaped]

namespace Predicate

/-- An escaped character is read as the character itself. -/
theorem result_quotedCharacter (character : Char) (rest : List Char) :
    quotedCharacter.result (Text.escape [character] ++ rest) = some (character, rest) := by
  by_cases special : character = '"' ∨ character = '\\'
  · rcases special with rfl | rfl <;> rfl
  · obtain ⟨quote, backslash⟩ := not_or.1 special
    simp [Text.escape, quotedCharacter, result_orElse, result_bind, result_word, after?,
      result_character_cons, quote, backslash, Ne.symm backslash]

/-- Characters that are read one by one, whether escaped or not, are read one after the other. -/
theorem steps_escape {rule : Rule Char} (reads : ∀ character rest,
      rule.result (Text.escape [character] ++ rest) = some (character, rest))
    (characters rest : List Char) :
    Steps rule characters (Text.escape characters ++ rest) rest := by
  induction characters with
  | nil => exact .done rest
  | cons character characters inductionHypothesis =>
      rw [Text.escape_cons, List.append_assoc]
      refine .step (reads character _) ?_ inductionHypothesis
      have positive : 0 < (Text.escape [character]).length := by
        simp only [Text.escape]
        split <;> simp
      simp only [List.length_append]
      omega

/-- A quoted text is read back. -/
theorem result_quotedText (text : String) (rest : List Char) :
    quotedText.result ((Text.quoted text).toList ++ rest) = some (text, rest) := by
  have opening (more : List Char) : (word "\"").result ('"' :: more) = some ((), more) :=
    result_word_append "\"" more
  have closes : quotedCharacter.result ('"' :: rest) = none := rfl
  have middle := result_many (steps_escape result_quotedCharacter text.toList ('"' :: rest)) closes
  simp only [Text.quoted_toList, List.cons_append, List.append_assoc, List.nil_append, quotedText,
    result_bind, opening, Option.bind_some, middle, result_pure, String.ofList_toList]

/-- The tokens of a group of members, which only needs brackets around two or more of them. -/
def bracketed (neutral joint : String) : List (List String) → List String
  | [] => [neutral]
  | [member] => member
  | first :: others => "(" :: ((first ++ others.flatMap (joint :: ·)) ++ [")"])

mutual

/-- The words, signs and quoted texts that a predicate is written with. -/
def tokens : Predicate → List String
  | .all operands => bracketed "TRUE" "&&" (tokensEach operands)
  | .any operands => bracketed "FALSE" "||" (tokensEach operands)
  | .not operand => "!" :: "(" :: (tokens operand ++ [")"])
  | .truth => ["TRUE"]
  | .falsity => ["FALSE"]
  | .id name => ["id", "==", Text.quoted name]
  | .tag label => ["tag", "(", Text.quoted label, ")"]
  | .reads label => ["reads", "(", Text.quoted label, ")"]
  | .writes label => ["writes", "(", Text.quoted label, ")"]
  | .erases label => ["erases", "(", Text.quoted label, ")"]
  | .kind wanted => ["kind", "==", wanted.name]
  | .terminal => ["terminal"]
  | .initial => ["initial"]

def tokensEach : List Predicate → List (List String)
  | [] => []
  | operand :: operands => tokens operand :: tokensEach operands

end

/-- A joint is read together with the spaces around it. -/
theorem result_joined {joint : String} {text more : List Char}
    (front : skip text = joint.toList ++ more) :
    (joined joint).result text = some ((), skip more) := by
  simp only [joined, result_bind, result_spaces, Option.bind_some, front, result_word_append]

/-- A joint is refused where it does not stand behind the spaces. -/
theorem result_joined_eq_none {joint : String} {text : List Char}
    (apart : after? joint.toList (skip text) = none) : (joined joint).result text = none := by
  simp only [joined, result_bind, result_spaces, Option.bind_some, result_word, apart]
  rfl

section

variable {Member Value : Type} {item : Rule Value} {joint : String} {value : Member → Value}
  {spelling : Member → List String}

/-- Members stand one after the other, each of them behind the joint. -/
theorem steps_joined {ends : List Char → Prop} (solid : Solid joint) {members : List Member}
    (reads : ∀ member ∈ members, ∀ text rest, ends rest → Laid (spelling member) text rest →
      item.result (skip text) = some (value member, rest))
    (between : ∀ tokens text rest, Laid (joint :: tokens) text rest → ends text)
    {text rest : List Char} (final : ends rest)
    (laid : Laid ((members.map spelling).flatMap (joint :: ·)) text rest) :
    Steps (do joined joint; item) (members.map value) text rest := by
  induction members generalizing text with
  | nil =>
      cases laid
      exact .done _
  | cons member members inductionHypothesis =>
      obtain ⟨more, front, laidMore⟩ := Laid.exists_skip laid solid
      obtain ⟨middle, before, after⟩ := Laid.split laidMore
      have endsMiddle : ends middle := by
        cases members with
        | nil =>
            cases after
            exact final
        | cons next members => exact between _ _ _ after
      have read : (do joined joint; item : Rule Value).result text =
          some (value member, middle) := by
        rw [result_bind, result_joined front, Option.bind_some]
        exact reads member List.mem_cons_self more middle endsMiddle before
      refine .step read ?_ (inductionHypothesis
        (fun other inOthers => reads other (List.mem_cons_of_mem _ inOthers)) after)
      -- The joint itself is taken off the text, which a step has to make shorter.
      obtain ⟨first, others, same, _⟩ := solid
      have skipped : (skip text).length ≤ text.length :=
        (List.dropWhile_suffix isSpace).length_le
      have shorter := before.rest_length_le
      simp only [front, same, List.length_append, List.length_cons] at skipped
      omega

/-- Members with a joint between them are read one after the other. -/
theorem result_separated (ends : List Char → Prop) (solid : Solid joint) {first : Member}
    {members : List Member}
    (reads : ∀ member ∈ first :: members, ∀ text rest, ends rest →
      Laid (spelling member) text rest → item.result (skip text) = some (value member, rest))
    (between : ∀ tokens text rest, Laid (joint :: tokens) text rest → ends text)
    {text rest : List Char} (final : ends rest) (apart : after? joint.toList (skip rest) = none)
    (laid : Laid (spelling first ++ (members.map spelling).flatMap (joint :: ·)) text rest) :
    (separated item (joined joint)).result (skip text) =
      some ((first :: members).map value, rest) := by
  obtain ⟨middle, before, after⟩ := laid.split
  have endsMiddle : ends middle := by
    cases members with
    | nil =>
        cases after
        exact final
    | cons next members => exact between _ _ _ after
  have stops : (do joined joint; item : Rule Value).result rest = none := by
    rw [result_bind, result_joined_eq_none apart, Option.bind_none]
  have others := result_many (steps_joined solid
    (fun other member => reads other (List.mem_cons_of_mem _ member)) between final after) stops
  simp only [separated, result_bind, reads first List.mem_cons_self text middle endsMiddle before,
    Option.bind_some, others, result_pure, List.map_cons]

end

/-- A quoted text does not begin with a space. -/
theorem solid_quoted (text : String) : Solid (Text.quoted text) :=
  ⟨'"', _, Text.quoted_toList text, rfl⟩

/-- A quoted argument is read between its brackets. -/
theorem result_argument {label : String} {text rest : List Char}
    (laid : Laid ["(", Text.quoted label, ")"] text rest) :
    argument.result text = some (label, rest) := by
  obtain ⟨inner, opens, laidInner⟩ := laid.exists_skip (by decide)
  obtain ⟨behind, quotes, laidBehind⟩ := laidInner.exists_skip (solid_quoted label)
  obtain ⟨last, closes, done⟩ := laidBehind.exists_skip (by decide)
  cases done
  simp only [argument, result_bind, result_spaces, Option.bind_some, opens, result_word_append,
    quotes, result_quotedText, closes, result_pure]

/-- The name of a kind of transitions is read as this kind. -/
theorem result_transitionKind (wanted : TransitionKind) (rest : List Char) :
    transitionKind.result (wanted.name.toList ++ rest) = some (wanted, rest) := by
  cases wanted <;> rfl

/-- The name of a kind of transitions does not begin with a space. -/
theorem solid_name (wanted : TransitionKind) : Solid wanted.name := by
  cases wanted <;> decide

/-- A single member is not followed by a joint. -/
theorem result_separated_single {Value : Type} {item : Rule Value} {joint : String}
    {text rest : List Char} {value : Value} (reads : item.result text = some (value, rest))
    (apart : after? joint.toList (skip rest) = none) :
    (separated item (joined joint)).result text = some ([value], rest) := by
  have stops : (do joined joint; item : Rule Value).result rest = none := by
    rw [result_bind, result_joined_eq_none apart, Option.bind_none]
  simp only [separated, result_bind, reads, Option.bind_some, result_many (.done rest) stops,
    result_pure]

/-- No joint follows, so that a group ends here. -/
structure Closes (rest : List Char) : Prop where
  conjunction : after? "&&".toList (skip rest) = none
  disjunction : after? "||".toList (skip rest) = none

/-- A closing bracket continues no group. -/
theorem closes_bracket {rest behind : List Char} (closed : skip rest = ")".toList ++ behind) :
    Closes rest := by
  constructor <;> rw [closed] <;> rfl

/-- The end of the text continues no group. -/
theorem closes_end {rest : List Char} (ended : skip rest = []) : Closes rest := by
  constructor <;> rw [ended] <;> rfl

section

variable {atom : Rule Predicate} {text rest : List Char} {value : Predicate}

/-- An atom that no joint follows is a conjunction on its own. -/
theorem result_conjunction_single (reads : atom.result text = some (value, rest))
    (apart : after? "&&".toList (skip rest) = none) :
    (conjunction atom).result text = some (value, rest) := by
  simp only [conjunction, result_bind, result_separated_single reads apart, Option.bind_some,
    result_pure, join]

/-- A conjunction that no joint follows is a disjunction on its own. -/
theorem result_disjunction_single (reads : (conjunction atom).result text = some (value, rest))
    (apart : after? "||".toList (skip rest) = none) :
    (disjunction atom).result text = some (value, rest) := by
  simp only [disjunction, result_bind, result_separated_single reads apart, Option.bind_some,
    result_pure, join]

end

/-- An atom behind the sign of a negation is negated. -/
theorem result_atom_not {depth : Nat} {text rest : List Char} {operand : Predicate}
    (reads : (atom depth).result (skip text) = some (operand, rest)) :
    (atom (depth + 1)).result ("!".toList ++ text) = some (.not operand, rest) := by
  simp [atom, result_orElse, result_bind, result_word, after?, result_spaces, reads]

/-- A disjunction between brackets is an atom. -/
theorem result_atom_bracket {depth : Nat} {text middle rest : List Char} {inner : Predicate}
    (reads : (disjunction (atom depth)).result (skip text) = some (inner, middle))
    (closed : skip middle = ")".toList ++ rest) :
    (atom (depth + 1)).result ("(".toList ++ text) = some (inner, rest) := by
  have opened : (atom (depth + 1)).result ("(".toList ++ text) =
      (do spaces; let inner ← disjunction (atom depth); spaces; word ")"; pure inner :
        Rule Predicate).result text := by
    simp [atom, result_orElse, result_bind, result_word, after?]
  simp only [opened, result_bind, result_spaces, Option.bind_some, reads, closed,
    result_word_append, result_pure]

/-- The tokens of the operands are listed one by one. -/
theorem tokensEach_eq_map (operands : List Predicate) :
    tokensEach operands = operands.map tokens := by
  induction operands with
  | nil => rfl
  | cons operand operands inductionHypothesis => rw [tokensEach, inductionHypothesis, List.map_cons]

/-- The normal forms of the operands are taken one by one. -/
theorem normalEach_eq_map (operands : List Predicate) :
    normalEach operands = operands.map normal := by
  induction operands with
  | nil => rfl
  | cons operand operands inductionHypothesis => rw [normalEach, inductionHypothesis, List.map_cons]

/-- A single predicate is neither a group nor a negation. -/
def isSingle : Predicate → Bool
  | .all _ | .any _ | .not _ => false
  | _ => true

/-- A predicate that is no group is read from its tokens as an atom. -/
theorem result_atom_single {predicate : Predicate} (isSingle : predicate.isSingle = true)
    {depth : Nat} {text rest : List Char} (laid : Laid predicate.tokens text rest) :
    (atom (depth + 1)).result (skip text) = some (predicate, rest) := by
  match predicate with
  | .truth | .falsity | .terminal | .initial =>
      obtain ⟨more, front, done⟩ := laid.exists_skip (by decide)
      cases done
      rw [front]
      rfl
  | .tag label | .reads label | .writes label | .erases label =>
      obtain ⟨more, front, later⟩ := laid.exists_skip (by decide)
      simp [atom, result_orElse, result_bind, result_word, after?, front, result_argument later]
  | .id name =>
      obtain ⟨more, front, later⟩ := laid.exists_skip (by decide)
      obtain ⟨behind, equals, laidBehind⟩ := later.exists_skip (by decide)
      obtain ⟨last, quotes, done⟩ := laidBehind.exists_skip (solid_quoted name)
      cases done
      simp [atom, result_orElse, result_bind, result_word, after?, result_spaces, front, equals,
        quotes, result_quotedText]
  | .kind wanted =>
      obtain ⟨more, front, later⟩ := laid.exists_skip (by decide)
      obtain ⟨behind, equals, laidBehind⟩ := later.exists_skip (by decide)
      obtain ⟨last, named, done⟩ := laidBehind.exists_skip (solid_name wanted)
      cases done
      simp [atom, result_orElse, result_bind, result_word, after?, result_spaces, front, equals,
        named, result_transitionKind]

/-- A group has solid tokens if its members do. -/
theorem solid_bracketed {neutral joint : String} (solidNeutral : Solid neutral)
    (solidJoint : Solid joint) {members : List (List String)}
    (solid : ∀ member ∈ members, ∀ token ∈ member, Solid token) :
    ∀ token ∈ bracketed neutral joint members, Solid token := by
  match members with
  | [] => simpa [bracketed] using solidNeutral
  | [member] => exact solid member List.mem_cons_self
  | first :: second :: others =>
      have opening : Solid "(" := by decide
      have closing : Solid ")" := by decide
      intro token member
      simp only [bracketed, List.mem_cons, List.mem_append, List.mem_flatMap, List.not_mem_nil,
        or_false] at member
      rcases member with rfl | ((inFirst | ⟨other, inOthers, rfl | inOther⟩) | rfl)
      · exact opening
      · exact solid first List.mem_cons_self token inFirst
      · exact solidJoint
      · exact solid other (List.mem_cons_of_mem _ (List.mem_cons.2 inOthers)) token inOther
      · exact closing

mutual

/-- No token of a predicate begins with a space. -/
theorem solid_tokens (predicate : Predicate) : ∀ token ∈ predicate.tokens, Solid token := by
  match predicate with
  | .all operands =>
      exact solid_bracketed (by decide) (by decide) (solid_tokensEach operands)
  | .any operands =>
      exact solid_bracketed (by decide) (by decide) (solid_tokensEach operands)
  | .not operand =>
      refine List.forall_mem_cons.2 ⟨by decide, List.forall_mem_cons.2 ⟨by decide, ?_⟩⟩
      exact List.forall_mem_append.2 ⟨solid_tokens operand, by decide⟩
  | .tag label | .reads label | .writes label | .erases label =>
      exact List.forall_mem_cons.2 ⟨by decide, List.forall_mem_cons.2 ⟨by decide,
        List.forall_mem_cons.2 ⟨solid_quoted label, by decide⟩⟩⟩
  | .id name =>
      exact List.forall_mem_cons.2 ⟨by decide, List.forall_mem_cons.2 ⟨by decide,
        List.forall_mem_cons.2 ⟨solid_quoted name, by simp⟩⟩⟩
  | .kind wanted => cases wanted <;> decide
  | .truth | .falsity | .terminal | .initial => decide

/-- No token of an operand begins with a space. -/
theorem solid_tokensEach (operands : List Predicate) :
    ∀ member ∈ tokensEach operands, ∀ token ∈ member, Solid token := by
  match operands with
  | [] => simp [tokensEach]
  | operand :: operands =>
      exact List.forall_mem_cons.2 ⟨solid_tokens operand, solid_tokensEach operands⟩

end

/-- A whole predicate is read with room for as much nesting as its text can have. -/
theorem result_predicate (text : List Char) : Predicate.predicate.result text =
    (do spaces; let whole ← disjunction (atom (text.length + 1)); spaces; pure whole :
      Rule Predicate).result text := by
  rw [Rule.result, Rule.result]
  congr 1

end Predicate

end PetriLogic
