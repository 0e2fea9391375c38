import PetriLogic.Grammar.Problem

namespace PetriLogic.Grammar

namespace Rule

variable {Value Result : Type}

/-- What a rule reads from the front of a text, and the text after it. -/
def result (rule : Rule Value) (text : List Char) : Option (Value × List Char) :=
  (rule (.ofList text)).reading.map fun (value, rest) => (value, rest.characters)

/-- A successful reading comes from the rule, whatever it misses on the way. -/
theorem exists_of_result {rule : Rule Value} {text rest : List Char} {value : Value}
    (reads : rule.result text = some (value, rest)) :
    ∃ misses, rule (.ofList text) = ⟨some (value, .ofList rest), misses⟩ := by
  obtain ⟨⟨other, unread⟩, found, same⟩ := Option.map_eq_some_iff.1 reads
  cases same
  rw [← unread.eqOfList, ← found]
  exact ⟨_, rfl⟩

/-- A refused reading comes from the rule, whatever it misses on the way. -/
theorem exists_of_result_eq_none {rule : Rule Value} {text : List Char}
    (refused : rule.result text = none) : ∃ misses, rule (.ofList text) = ⟨none, misses⟩ := by
  rw [← Option.map_eq_none_iff.1 refused]
  exact ⟨_, rfl⟩

@[simp] theorem result_pure (value : Value) (text : List Char) :
    (pure value : Rule Value).result text = some (value, text) := rfl

/-- A rule after another reads what the other one leaves. -/
theorem result_bind (rule : Rule Value) (next : Value → Rule Result) (text : List Char) :
    (rule >>= next).result text =
      (rule.result text).bind fun (value, rest) => (next value).result rest := by
  simp only [result, bind, andThen]
  cases read : rule (.ofList text) with
  | mk reading misses =>
      cases reading with
      | none => rfl
      | some found =>
          obtain ⟨value, rest⟩ := found
          simp only [Attempt.after, Option.map_some, Option.bind_some, ← rest.eqOfList]

/-- Two rules read a text when the second one reads what the first one leaves. -/
theorem result_bind_iff {rule : Rule Value} {next : Value → Rule Result}
    {text rest : List Char} {result : Result} :
    (rule >>= next).result text = some (result, rest) ↔
      ∃ value middle, rule.result text = some (value, middle) ∧
        (next value).result middle = some (result, rest) := by
  simp only [result_bind, Option.bind_eq_some_iff, Prod.exists]

/-- The second rule reads what the first one refuses. -/
theorem result_orElse (first second : Rule Value) (text : List Char) :
    (first <|> second).result text = (first.result text).or (second.result text) := by
  show (orElse first fun _ => second).result text = _
  simp only [result, orElse]
  cases first (.ofList text) with
  | mk reading misses => cases reading <;> rfl

end Rule

open Rule (result)

variable {Value Result : Type}

/-- A word is read where it is found. -/
theorem result_word (spelling : String) (text : List Char) :
    (word spelling).result text = (after? spelling.toList text).map fun rest => ((), rest) := by
  cases found : after? spelling.toList text with
  | none =>
      have missed : (Unread.ofList text).afterWord? spelling.toList = none := by
        unfold Unread.afterWord?
        split
        · rfl
        · rename_i same
          cases found.symm.trans same
      simp only [result, word, missed]
      rfl
  | some rest =>
      rw [splitAfter found]
      simp only [result, word, Unread.afterWordOfAppend]
      rfl

/-- A word is read from the texts that begin with it. -/
theorem result_word_iff {spelling : String} {text rest : List Char} {value : Unit} :
    (word spelling).result text = some (value, rest) ↔ text = spelling.toList ++ rest := by
  rw [result_word, Option.map_eq_some_iff]
  constructor
  · rintro ⟨behind, front, same⟩
    cases same
    exact splitAfter front
  · rintro rfl
    exact ⟨rest, afterAppend _ _, rfl⟩

/-- The text behind the spaces at its front. -/
def skip (text : List Char) : List Char := text.dropWhile isSpace

/-- Spaces are always read, and they are skipped. -/
theorem result_spaces (text : List Char) : spaces.result text = some ((), skip text) := rfl

/-- The first character is read if it is admitted. -/
theorem result_character_cons (name : String) (admits : Char → Bool) (first : Char)
    (rest : List Char) :
    (character name admits).result (first :: rest) =
      if admits first then some (first, rest) else none := by
  simp only [result, character, Unread.firstOfCons]
  split <;> rfl

/-- Readings of one rule follow each other, and each of them makes the text shorter. -/
inductive Steps (rule : Rule Value) : List Value → List Char → List Char → Prop where
  | done (text : List Char) : Steps rule [] text text
  | step {value : Value} {values : List Value} {text middle rest : List Char}
      (read : rule.result text = some (value, middle)) (shorter : middle.length < text.length)
      (later : Steps rule values middle rest) : Steps rule (value :: values) text rest

/-- Repeated readings find the values of all steps, if the limit leaves room. -/
theorem manyAfter_of_steps {rule : Rule Value} {values : List Value} {text rest : List Char}
    (steps : Steps rule values text rest) (stops : rule.result rest = none)
    (found : List Value) (misses : Misses) {limit : Nat} (enough : text.length < limit) :
    (manyAfter rule found misses limit (.ofList text)).reading =
      some (found.reverse ++ values, .ofList rest) := by
  induction steps generalizing found misses limit with
  | done text =>
      obtain ⟨limit, rfl⟩ := Nat.exists_eq_add_one_of_ne_zero (Nat.ne_zero_of_lt enough)
      obtain ⟨more, refused⟩ := Rule.exists_of_result_eq_none stops
      rw [manyAfter, refused, List.append_nil]
  | @step value values text middle rest read shorter later inductionHypothesis =>
      obtain ⟨limit, rfl⟩ := Nat.exists_eq_add_one_of_ne_zero (Nat.ne_zero_of_lt enough)
      obtain ⟨more, attempted⟩ := Rule.exists_of_result read
      rw [manyAfter, attempted]
      have next := inductionHypothesis stops (value :: found) (misses.merge more)
        (Nat.lt_of_lt_of_le shorter (Nat.le_of_lt_succ enough))
      rwa [List.reverse_cons, List.append_assoc] at next

/-- A repetition reads as long as its rule does. -/
theorem result_many {rule : Rule Value} {values : List Value} {text rest : List Char}
    (steps : Steps rule values text rest) (stops : rule.result rest = none) :
    (many rule).result text = some (values, rest) := by
  have reads : (many rule (.ofList text)).reading = some (values, .ofList rest) :=
    manyAfter_of_steps steps stops [] .empty (Nat.lt_succ_self text.length)
  rw [result, reads]
  rfl

/-- A spelled rule gives the text that it reads. -/
theorem result_spelled {rule : Rule Value} {value : Value} {read rest : List Char}
    (reads : rule.result (read ++ rest) = some (value, rest)) :
    (spelled rule).result (read ++ rest) = some (read, rest) := by
  obtain ⟨misses, attempted⟩ := Rule.exists_of_result reads
  rw [result, spelled, attempted]
  simp [Unread.upTo, Unread.ofList]

/-- An admitted value is read as what it stands for. -/
theorem result_admitted {name : String} {read : Value → Option Result} {rule : Rule Value}
    {value : Value} {found : Result} {text rest : List Char}
    (reads : rule.result text = some (value, rest)) (admits : read value = some found) :
    (admitted name read rule).result text = some (found, rest) := by
  simp only [admitted, Rule.result_bind, reads, Option.bind_some, admits, Rule.result_pure]

/-- A rule that leaves nothing unread reads the whole text. -/
theorem read_eq_ok {rule : Rule Value} {source : String} {value : Value}
    (reads : rule.result source.toList = some (value, [])) : read rule source = .ok value := by
  obtain ⟨misses, attempted⟩ := Rule.exists_of_result reads
  rw [read]
  simp only [attempted]
  rfl

end PetriLogic.Grammar
