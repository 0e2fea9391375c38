import PetriLogic.Proofs.Grammar.Choice

namespace PetriLogic.Grammar

variable {Value Result : Type}

/-- A text is accepted when the rule reads it and leaves nothing. -/
theorem read_ok_iff {rule : Rule Value} {source : String} {value : Value} :
    read rule source = .ok value ↔ rule.result source.toList = some (value, []) := by
  refine ⟨fun accepted => ?_, read_eq_ok⟩
  rw [read] at accepted
  split at accepted
  · rename_i found rest misses attempted
    split at accepted
    · rename_i finished
      cases accepted
      rw [Rule.result, attempted, ← List.isEmpty_iff.1 finished]
      rfl
    · cases accepted
  · cases accepted

/-- The same of a reading whose problem is part of another failure. -/
theorem mapError_read_ok_iff {Failure : Type} {failure : Problem → Failure} {rule : Rule Value}
    {source : String} {value : Value} :
    (read rule source).mapError failure = .ok value ↔
      rule.result source.toList = some (value, []) := by
  rw [← read_ok_iff]
  cases read rule source <;> simp [Except.mapError]

/-- An admitted value is what was read. -/
theorem exists_of_result_admitted {name : String} {admits : Value → Option Result}
    {rule : Rule Value} {result : Result} {text rest : List Char}
    (reads : (admitted name admits rule).result text = some (result, rest)) :
    ∃ value, rule.result text = some (value, rest) ∧ admits value = some result := by
  obtain ⟨value, middle, readsValue, settled⟩ := Rule.result_bind_iff.1 reads
  split at settled
  · rename_i found isAdmitted
    cases settled
    exact ⟨value, readsValue, isAdmitted⟩
  · cases settled

/-- The language has the empty text, and any two of its texts one after the other. -/
class Joinable (language : List Char → Prop) : Prop where
  nil : language []
  append : ∀ first second, language first → language second → language (first ++ second)

/-- A text of the language and the closer behind it. -/
def Closing (language : List Char → Prop) (closer : String) (text : List Char) : Prop :=
  ∃ inside, language inside ∧ text = inside ++ closer.toList

/-- Any text at all. -/
def AnyText (_ : List Char) : Prop := True

instance : Joinable AnyText := ⟨trivial, fun _ _ _ _ => trivial⟩

namespace Rule

/--
Whatever the rule reads belongs to the language, and its value has the property. Nothing is said
about texts that the rule refuses.
-/
def Ensures (rule : Rule Value) (language : List Char → Prop) (holds : Value → Prop) : Prop :=
  ∀ text value rest, rule.result text = some (value, rest) →
    holds value ∧ ∃ read, language read ∧ text = read ++ rest

namespace Ensures

variable {rule : Rule Value} {language : List Char → Prop} {holds : Value → Prop}

/-- An accepted text belongs to the language as a whole. -/
theorem whole (ensures : rule.Ensures language holds) {source : String} {value : Value}
    (reads : rule.result source.toList = some (value, [])) :
    holds value ∧ language source.toList := by
  obtain ⟨held, read, isText, same⟩ := ensures _ _ _ reads
  rw [List.append_nil] at same
  exact ⟨held, same ▸ isText⟩

/-- A rule ensures every larger language and every weaker property. -/
theorem imp {larger : List Char → Prop} {weaker : Value → Prop}
    (ensures : rule.Ensures language holds) (isLarger : ∀ read, language read → larger read)
    (isWeaker : ∀ value, holds value → weaker value) : rule.Ensures larger weaker := by
  intro text value rest reads
  obtain ⟨held, read, isText, same⟩ := ensures text value rest reads
  exact ⟨isWeaker value held, read, isLarger read isText, same⟩

/-- A rule leaves an end of the text. -/
theorem anyText (ensures : rule.Ensures language holds) : rule.Ensures AnyText fun _ => True :=
  ensures.imp (fun _ _ => trivial) fun _ _ => trivial

/-- A rule that reads nothing ensures everything. -/
protected theorem fail : (Rule.fail : Rule Value).Ensures language holds := by
  intro text value rest reads
  cases reads

/-- A choice of two rules ensures what both of them ensure. -/
protected theorem orElse {second : Rule Value} (ensures : rule.Ensures language holds)
    (otherwise : second.Ensures language holds) : (rule <|> second).Ensures language holds := by
  intro text value rest reads
  rw [result_orElse, Option.or_eq_some_iff] at reads
  rcases reads with reads | ⟨_, reads⟩
  · exact ensures text value rest reads
  · exact otherwise text value rest reads

/-- A choice ensures what each of its rules ensures. -/
protected theorem choice {rules : List (Rule Value)}
    (each : ∀ rule ∈ rules, rule.Ensures language holds) :
    (choice rules).Ensures language holds := by
  match rules with
  | [] => exact .fail
  | [rule] => exact each rule List.mem_cons_self
  | rule :: other :: others =>
      obtain ⟨first, later⟩ := List.forall_mem_cons.1 each
      exact first.orElse (.choice later)

/-- The texts of both rules join to a text of the language. -/
theorem seq {next : Value → Rule Result} {before after : List Char → Prop}
    {outcome : Result → Prop} (ensures : rule.Ensures before holds)
    (later : ∀ value, holds value → (next value).Ensures after outcome)
    (joins : ∀ first second, before first → after second → language (first ++ second)) :
    (rule >>= next).Ensures language outcome := by
  intro text value rest reads
  obtain ⟨found, middle, readsFirst, readsSecond⟩ := result_bind_iff.1 reads
  obtain ⟨held, first, isFirst, rfl⟩ := ensures text found middle readsFirst
  obtain ⟨heldLater, second, isSecond, rfl⟩ := later found held middle value rest readsSecond
  exact ⟨heldLater, first ++ second, joins first second isFirst isSecond,
    (List.append_assoc ..).symm⟩

/-- A word reads itself. -/
protected theorem word (spelling : String) :
    (word spelling).Ensures (· = spelling.toList) fun _ => True := by
  intro text value rest reads
  exact ⟨trivial, spelling.toList, rfl, result_word_iff.1 reads⟩

/-- A word reads a text of each language that has it. -/
theorem word_mem {spelling : String} (isText : language spelling.toList) :
    (Grammar.word spelling).Ensures language fun _ => True :=
  (Ensures.word spelling).imp (fun _ same => same ▸ isText) fun _ => id

/-- Spaces are all that is read as spaces. -/
protected theorem spaces : spaces.Ensures
    (fun blanks => ∀ character ∈ blanks, isSpace character = true) fun _ => True := by
  intro text value rest reads
  cases reads
  exact ⟨trivial, text.takeWhile isSpace, List.all_eq_true.1 List.all_takeWhile,
    List.takeWhile_append_dropWhile.symm⟩

/-- A character is read alone, and it is an admitted one. -/
protected theorem character (name : String) (admits : Char → Bool) :
    (character name admits).Ensures (fun read => ∃ found, admits found = true ∧ read = [found])
      fun found => admits found = true := by
  intro text value rest reads
  cases text with
  | nil => cases reads
  | cons first others =>
      rw [result_character_cons] at reads
      split at reads
      · rename_i admitted
        cases reads
        exact ⟨admitted, [value], ⟨value, admitted, rfl⟩, rfl⟩
      · cases reads

/-- A value that is only changed is read from the same texts. -/
protected theorem map {change : Value → Result} {outcome : Result → Prop}
    (ensures : rule.Ensures language holds)
    (changed : ∀ value, holds value → outcome (change value)) :
    (do let value ← rule; pure (change value)).Ensures language outcome := by
  intro text result rest reads
  obtain ⟨value, middle, readsValue, same⟩ := result_bind_iff.1 reads
  cases same
  obtain ⟨held, isRead⟩ := ensures text value middle readsValue
  exact ⟨changed value held, isRead⟩

/-- What is spelled is the text that was read. -/
protected theorem spelled (ensures : rule.Ensures language holds) {text read rest : List Char}
    (spells : (spelled rule).result text = some (read, rest)) : text = read ++ rest := by
  obtain ⟨⟨found, unread⟩, attempted, same⟩ := Option.map_eq_some_iff.1 spells
  cases same
  rw [Grammar.spelled] at attempted
  split at attempted
  · cases attempted
  · rename_i value _ misses reads
    cases attempted
    have result : rule.result text = some (value, unread.characters) := by
      rw [result, reads]
      rfl
    obtain ⟨_, front, _, rfl⟩ := ensures text value unread.characters result
    simp [Unread.upTo, Unread.ofList, unread.measured]

section

variable [Joinable language]

/-- A rule that reads nothing ensures what its value has. -/
protected theorem pure {value : Value} (held : holds value) :
    (pure value : Rule Value).Ensures language holds := by
  intro text other rest reads
  cases reads
  exact ⟨held, [], Joinable.nil, rfl⟩

/-- Rules one after the other read joined texts, and the last one gives the value. -/
protected theorem bind {next : Value → Rule Result} {outcome : Result → Prop}
    (ensures : rule.Ensures language holds)
    (later : ∀ value, holds value → (next value).Ensures language outcome) :
    (rule >>= next).Ensures language outcome :=
  ensures.seq later Joinable.append

/-- Repeated readings add values with the property and read joined texts. -/
protected theorem manyAfter (ensures : rule.Ensures language holds) {found values : List Value}
    {misses : Misses} {limit : Nat} {text rest : Unread}
    (held : ∀ value ∈ found, holds value)
    (reads : (manyAfter rule found misses limit text).reading = some (values, rest)) :
    (∀ value ∈ values, holds value) ∧
      ∃ read, language read ∧ text.characters = read ++ rest.characters := by
  induction limit generalizing found misses text with
  | zero =>
      cases reads
      exact ⟨by simpa using held, [], Joinable.nil, rfl⟩
  | succ limit inductionHypothesis =>
      rw [Grammar.manyAfter] at reads
      split at reads
      · cases reads
        exact ⟨by simpa using held, [], Joinable.nil, rfl⟩
      · rename_i value middle more attempted
        have result : rule.result text.characters = some (value, middle.characters) := by
          rw [result, ← text.eqOfList, attempted]
          rfl
        obtain ⟨first, read, isText, front⟩ := ensures _ _ _ result
        obtain ⟨each, others, areTexts, behind⟩ :=
          inductionHypothesis (List.forall_mem_cons.2 ⟨first, held⟩) reads
        refine ⟨each, read ++ others, Joinable.append _ _ isText areTexts, ?_⟩
        rw [front, behind, List.append_assoc]

/-- Repeating a rule gives values with the property. -/
protected theorem many (ensures : rule.Ensures language holds) :
    (many rule).Ensures language fun values => ∀ value ∈ values, holds value := by
  intro text values rest reads
  obtain ⟨⟨found, unread⟩, attempted, same⟩ := Option.map_eq_some_iff.1 reads
  cases same
  exact Ensures.manyAfter ensures (List.forall_mem_nil _) attempted

/-- A separated list has at least one value, and all of them have the property. -/
protected theorem separated {separator : Rule Unit} (ensures : rule.Ensures language holds)
    (between : separator.Ensures language fun _ => True) :
    (separated rule separator).Ensures language
      fun values => values ≠ [] ∧ ∀ value ∈ values, holds value := by
  refine .bind ensures fun first held => ?_
  refine .map (.many (.bind between fun _ _ => ensures)) fun values each => ?_
  exact ⟨List.cons_ne_nil _ _, List.forall_mem_cons.2 ⟨held, each⟩⟩

/-- A named rule ensures the property of its values. -/
protected theorem named {names : List String} (ensures : rule.Ensures AnyText holds) :
    (named names rule).Ensures AnyText holds := by
  have each : ∀ rule ∈ names.map word, rule.Ensures AnyText fun _ => True :=
    List.forall_mem_map.2 fun name _ => (Ensures.word name).anyText
  exact .bind (.choice each) fun _ _ => ensures

/-- What stands before the closer is read piece by piece. -/
theorem inside {next : Value → Rule Result} {closer : String} {outcome : Result → Prop}
    (ensures : rule.Ensures language holds)
    (later : ∀ value, holds value → (next value).Ensures (Closing language closer) outcome) :
    (rule >>= next).Ensures (Closing language closer) outcome := by
  refine ensures.seq later ?_
  rintro first _ isText ⟨inside, isInside, rfl⟩
  exact ⟨first ++ inside, Joinable.append _ _ isText isInside, (List.append_assoc ..).symm⟩

/-- A closer alone closes the empty text of the language. -/
theorem closer (closer : String) {value : Value} (held : holds value) :
    (do word closer; pure value : Rule Value).Ensures (Closing language closer) holds :=
  .map (word_mem ⟨[], Joinable.nil, rfl⟩) fun _ _ => held

end

end Rule.Ensures

end PetriLogic.Grammar
