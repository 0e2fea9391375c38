import PetriLogic.Proofs.Formula.Writing
import PetriLogic.Proofs.Text.Lines
import PetriLogic.Verification.FormulaFile

namespace PetriLogic

open Grammar Text

/-- The spaces of the grammar are white space. -/
theorem Text.isBlank_of_isSpace {character : Char} (space : isSpace character = true) :
    isBlank character = true := by
  simp only [isSpace, Bool.or_eq_true, decide_eq_true_eq] at space
  rcases space with ((rfl | rfl) | rfl) | rfl <;> rfl

/-- Spaces of the grammar make a blank text. -/
theorem Text.Blank.of_spaces {text : List Char}
    (spaces : ∀ character ∈ text, isSpace character = true) : Blank text :=
  fun character isIn => isBlank_of_isSpace (spaces character isIn)

namespace Formula

variable {kind : NodeKind} {formula : Formula kind} {text : List Char}

/-- Neither white space nor a mark that has a meaning in a file. -/
def isOrdinary (character : Char) : Bool :=
  !isBlank character && character ≠ ':' && character ≠ '#'

/-- The names of operators have ordinary characters only, and one at least. -/
theorem ordinary_of_mem_names (formula : Formula kind) : ∀ name ∈ formula.names,
    name.toList ≠ [] ∧ name.toList.all isOrdinary = true := by
  cases kind <;> cases formula <;> simp only [names, symbol] <;> decide +kernel

/-- No character in the name of an operator is white space, a colon or a number sign. -/
theorem plain_of_mem_names (formula : Formula kind) {name : String} (isName : name ∈ formula.names)
    {character : Char} (isIn : character ∈ name.toList) :
    isBlank character = false ∧ character ≠ ':' ∧ character ≠ '#' := by
  have ordinary := List.all_eq_true.1 (formula.ordinary_of_mem_names name isName).2 character isIn
  simpa [isOrdinary, and_assoc] using ordinary

/-- Only a bracket can stand behind the name of the operator. -/
theorem Written.exists_name (written : formula.Written text) :
    ∃ name ∈ formula.names, text = name.toList ∨
      ∃ blanks inside, (∀ character ∈ blanks, isSpace character = true) ∧
        text = name.toList ++ (blanks ++ '(' :: (inside ++ [')'])) := by
  cases formula with
  | truth | falsity => exact ⟨_, symbol_mem_names _, .inl written⟩
  | _ =>
      obtain ⟨name, isName, blanks, inside, blank, _, same⟩ := written
      exact ⟨name, isName, .inr ⟨blanks, inside, blank, same⟩⟩

/-- Nothing has to be trimmed from a written formula. -/
theorem Written.bare (written : formula.Written text) : Bare text := by
  obtain ⟨name, isName, same⟩ := written.exists_name
  have bareName : Bare name.toList := bare_of_forall fun _ isIn =>
    (formula.plain_of_mem_names isName isIn).1
  have bareBracket : Bare [')'] := bare_of_forall (List.forall_mem_singleton.2 rfl)
  rcases same with rfl | ⟨blanks, inside, _, rfl⟩
  · exact bareName
  · have someName := (formula.ordinary_of_mem_names name isName).1
    have whole := @Bare.append _ (blanks ++ '(' :: inside) _ bareName bareBracket someName (by simp)
    rwa [List.append_assoc] at whole

/-- A written formula does not begin like a comment. -/
theorem Written.exists_cons (written : formula.Written text) :
    ∃ first others, text = first :: others ∧ first ≠ '#' := by
  obtain ⟨name, isName, same⟩ := written.exists_name
  have someName := (formula.ordinary_of_mem_names name isName).1
  obtain ⟨first, others, front⟩ := List.exists_cons_of_ne_nil someName
  have apart := (formula.plain_of_mem_names isName (front ▸ List.mem_cons_self)).2.2
  rcases same with rfl | ⟨blanks, inside, _, rfl⟩
  · exact ⟨first, others, front, apart⟩
  · exact ⟨first, _, by rw [front, List.cons_append], apart⟩

/-- Trimming an accepted text takes away the spaces around it and nothing else. -/
theorem Written.trim (around : Around formula.Written text) :
    formula.Written (Text.trim text) ∧ Around (· = Text.trim text) text := by
  obtain ⟨before, core, after, blankBefore, blankAfter, written, rfl⟩ := around
  have trimmed : Text.trim (before ++ (core ++ after)) = core := by
    rw [trim_append (.of_spaces blankBefore) (.of_spaces blankAfter), written.bare.trim_eq]
  rw [trimmed]
  exact ⟨written, before, core, after, blankBefore, blankAfter, rfl, rfl⟩

end Formula

namespace FormulaFile

/-- A text without a colon passes the test for the front of a line. -/
theorem ne_colon {text : List Char} (noColon : ':' ∉ text) :
    ∀ character ∈ text, decide (character ≠ ':') = true :=
  fun _ isIn => decide_eq_true fun same => noColon (same ▸ isIn)

/-- A blank text has no colon. -/
theorem noColon_of_blank {text : List Char} (blank : Blank text) : ':' ∉ text :=
  fun isIn => absurd (blank ':' isIn) (by decide)

/-- A line without a colon names nothing. -/
theorem entry_of_notMem {line : List Char} (noColon : ':' ∉ line) : entry line = unnamed line := by
  rw [entry, List.dropWhile_eq_nil_iff.2 (ne_colon noColon)]

/-- A mark that no name can hold keeps the line whole. -/
theorem entry_of_mem {line : List Char} {mark : Char} (isIn : mark ∈ line.takeWhile (· ≠ ':'))
    (solid : isBlank mark = false) (refused : isNameCharacter mark = false) :
    entry line = unnamed line := by
  have noName : isName (trim (line.takeWhile (· ≠ ':'))) = false := by
    rw [isName, Bool.and_eq_false_iff]
    exact .inr (List.all_eq_false.2 ⟨mark, mem_trim isIn solid, by simp [refused]⟩)
  unfold entry
  split
  · rfl
  · simp only [noName, Bool.false_eq_true, if_false]

/-- The marks of a file and the bracket of an operator are in no name. -/
theorem isNameCharacter_of_mark {mark : Char} (isMark : mark ∈ ['(', ':', '#']) :
    isNameCharacter mark = false := by
  have each : ['(', ':', '#'].all (!isNameCharacter ·) = true := by decide +kernel
  simpa using List.all_eq_true.1 each mark isMark

/-- What stands before the first colon of a formula is never a name. -/
theorem entry_of_written {kind : NodeKind} {formula : Formula kind} {line : List Char}
    (written : formula.Written line) : entry line = unnamed line := by
  obtain ⟨name, isName, same⟩ := written.exists_name
  have inName : ':' ∉ name.toList := fun isIn =>
    (formula.plain_of_mem_names isName isIn).2.1 rfl
  rcases same with rfl | ⟨blanks, inside, blank, rfl⟩
  · exact entry_of_notMem inName
  · -- The bracket comes before any colon, and no name holds one.
    have front := ne_colon (List.not_mem_append inName (noColon_of_blank (.of_spaces blank)))
    have refused : isNameCharacter '(' = false := isNameCharacter_of_mark List.mem_cons_self
    apply entry_of_mem _ rfl refused
    rw [← List.append_assoc, List.takeWhile_append_of_pos front]
    simp

/-- A name that a line can give to its formula. -/
structure Name where
  text : String
  nonempty : text.toList ≠ []
  bare : Bare text.toList
  admitted : ∀ character ∈ text.toList,
    isAlphanumeric character = true ∨ character ∈ ['_', '-', ' ', '.']

namespace Name

/-- The characters of a name are those that a name may have. -/
theorem isNameCharacter (name : Name) :
    ∀ character ∈ name.text.toList, FormulaFile.isNameCharacter character = true := by
  intro character isIn
  have allowed := name.admitted character isIn
  simp only [List.mem_cons, List.not_mem_nil, or_false] at allowed
  simp only [FormulaFile.isNameCharacter, Bool.or_eq_true, decide_eq_true_eq]
  tauto

/-- The text of a name is accepted as a name. -/
theorem isName (name : Name) : FormulaFile.isName name.text.toList = true := by
  rw [FormulaFile.isName, Bool.and_eq_true]
  exact ⟨by simp [name.nonempty], List.all_eq_true.2 name.isNameCharacter⟩

/-- A name has none of the marks with a meaning in a file. -/
theorem notMem (name : Name) {mark : Char} (isMark : mark ∈ ['(', ':', '#']) :
    mark ∉ name.text.toList := by
  intro isIn
  have isNameCharacter := name.isNameCharacter mark isIn
  rw [isNameCharacter_of_mark isMark] at isNameCharacter
  cases isNameCharacter

end Name

/-- A formula as a file holds it. -/
structure Item where
  name : Option Name
  text : String
  accepted : ∃ kind, ∃ formula : Formula kind, Formula.read kind text = .ok formula

namespace Item

/-- The text of the formula without the white space around it. -/
def formula (item : Item) : String := String.ofList (trim item.text.toList)

/-- An item without a name is an entry named after its formula. -/
def entry (item : Item) : Entry where
  name := (item.name.map Name.text).getD item.formula
  formula := item.formula

/-- The text of an item writes a formula, apart from the white space around it. -/
theorem exists_written (item : Item) :
    ∃ kind, ∃ formula : Formula kind, formula.Written (trim item.text.toList) ∧
      Around (· = trim item.text.toList) item.text.toList := by
  obtain ⟨kind, formula, accepted⟩ := item.accepted
  exact ⟨kind, formula, Formula.Written.trim (Formula.read_iff_written.1 accepted)⟩

/-- The white space around a formula is no part of it. -/
theorem read_formula_iff (item : Item) {kind : NodeKind} {formula : Formula kind} :
    Formula.read kind item.formula = .ok formula ↔ Formula.read kind item.text = .ok formula := by
  rw [Formula.read_iff_written, Formula.read_iff_written, Item.formula, String.toList_ofList]
  constructor
  · intro around
    obtain ⟨_, _, _, outer⟩ := item.exists_written
    exact (outer.imp fun _ same => same ▸ around).join
  · exact fun around => .self (Formula.Written.trim around).1

end Item

/-- What stands on one line, with any white space around its parts. -/
inductive Line : List Item → List Char → Prop where
  | blank {line : List Char} (blank : Blank line) : Line [] line
  | comment {before : List Char} (blank : Blank before) (remark : List Char) :
      Line [] (before ++ '#' :: remark)
  | unnamed {before after : List Char} (item : Item) (noName : item.name = none)
      (blankBefore : Blank before) (blankAfter : Blank after) :
      Line [item] (before ++ (item.text.toList ++ after))
  | named {before behind between after : List Char} (item : Item) {name : Name}
      (hasName : item.name = some name) (blankBefore : Blank before) (blankBehind : Blank behind)
      (blankBetween : Blank between) (blankAfter : Blank after) :
      Line [item] (before ++ (name.text.toList ++
        (behind ++ ':' :: (between ++ (item.text.toList ++ after)))))

/-- The lines one after the other with a line feed between them. -/
inductive File : List Item → List Char → Prop where
  | last {items : List Item} {line : List Char} (single : '\n' ∉ line) (holds : Line items line) :
      File items line
  | next {items others : List Item} {line rest : List Char} (single : '\n' ∉ line)
      (holds : Line items line) (later : File others rest) :
      File (items ++ others) (line ++ '\n' :: rest)

/-- The entries on given lines. -/
def held (lines : List (List Char)) : List Entry :=
  ((lines.map trim).filter (!isComment ·)).map entry

/-- The entries of the first line come before those of the others. -/
theorem held_cons (line : List Char) (lines : List (List Char)) :
    held (line :: lines) = held [line] ++ held lines := by
  simp only [held, ← List.map_append, ← List.filter_append, List.map_cons]
  rfl

/-- A comment holds no entry. -/
theorem held_of_isComment {line : List Char} (comment : isComment (trim line) = true) :
    held [line] = [] := by
  simp [held, comment]

/-- Any other line holds one entry. -/
theorem held_singleton {line : List Char} {first : Char} {others : List Char}
    (front : trim line = first :: others) (apart : first ≠ '#') :
    held [line] = [entry (trim line)] := by
  simp [held, front, isComment, apart]

/-- A line with a name before its first colon holds the formula behind the colon. -/
theorem entry_named (name : Name) {behind : List Char} (blank : Blank behind)
    (formula : List Char) : entry (name.text.toList ++ (behind ++ ':' :: formula)) =
      ⟨name.text, String.ofList (trim formula)⟩ := by
  have front := ne_colon (List.not_mem_append (name.notMem (by simp))
    (noColon_of_blank blank))
  have before : (name.text.toList ++ (behind ++ ':' :: formula)).takeWhile (· ≠ ':') =
      name.text.toList ++ behind := by
    rw [← List.append_assoc, List.takeWhile_append_of_pos front]
    simp
  have after : (name.text.toList ++ (behind ++ ':' :: formula)).dropWhile (· ≠ ':') =
      ':' :: formula := by
    rw [← List.append_assoc, List.dropWhile_append_of_pos front]
    simp
  have trimmed : trim (name.text.toList ++ behind) = name.text.toList := by
    have whole := @trim_append [] behind name.text.toList (List.forall_mem_nil _) blank
    rwa [name.bare.trim_eq] at whole
  simp only [entry, before, after, trimmed, name.isName, if_true, String.ofList_toList]

/-- A named formula is held whatever white space stands around its parts. -/
theorem held_named {kind : NodeKind} {formula : Formula kind} (name : Name)
    {before behind between core after : List Char} (written : formula.Written core)
    (blankBefore : Blank before) (blankBehind : Blank behind) (blankBetween : Blank between)
    (blankAfter : Blank after) :
    held [before ++ (name.text.toList ++ ((behind ++ ':' :: between) ++ core) ++ after)] =
      [⟨name.text, String.ofList core⟩] := by
  obtain ⟨first, others, front⟩ := List.exists_cons_of_ne_nil name.nonempty
  obtain ⟨_, _, someCore, _⟩ := written.exists_cons
  have noHash : '#' ∉ name.text.toList := name.notMem (by simp)
  have apart : first ≠ '#' := fun same => noHash (by simp [front, same])
  have bare : Bare (name.text.toList ++ ((behind ++ ':' :: between) ++ core)) :=
    name.bare.append written.bare name.nonempty (by simp [someCore])
  have trimmed := (@trim_append _ _ _ blankBefore blankAfter).trans bare.trim_eq
  have formulaTrimmed : trim (between ++ core) = core := by
    have inner := @trim_append between [] core blankBetween (List.forall_mem_nil _)
    rwa [List.append_nil, written.bare.trim_eq] at inner
  rw [held_singleton (trimmed.trans (by rw [front]; rfl)) apart, trimmed]
  simp only [List.append_assoc, List.cons_append]
  rw [entry_named name blankBehind, formulaTrimmed]

/-- A line holds the entry of its item, or none if it is blank or a comment. -/
theorem Line.held_eq {items : List Item} {line : List Char} (holds : Line items line) :
    held [line] = items.map Item.entry := by
  cases holds with
  | blank blank =>
      apply held_of_isComment
      rw [trim_of_blank blank]
      rfl
  | comment blank remark =>
      apply held_of_isComment
      rw [trim, List.dropWhile_append_of_pos blank, List.dropWhile_cons_of_neg (by decide),
        trimEnd_cons (by decide)]
      rfl
  | unnamed item noName blankBefore blankAfter =>
      obtain ⟨_, _, written, _⟩ := item.exists_written
      obtain ⟨first, others, front, apart⟩ := written.exists_cons
      have trimmed := @trim_append _ _ item.text.toList blankBefore blankAfter
      rw [held_singleton (trimmed.trans front) apart, trimmed, entry_of_written written]
      simp [Item.entry, noName, FormulaFile.unnamed, Item.formula]
  | @named before behind between after item name hasName blankBefore blankBehind blankBetween
      blankAfter =>
      obtain ⟨_, _, written, left, core, right, blankLeft, blankRight, isCore, same⟩ :=
        item.exists_written
      rw [← isCore] at written
      -- The spaces before the formula go with the colon, and those behind it with the line.
      have middle := blankBetween.append (Blank.of_spaces blankLeft)
      have whole := held_named name written blankBefore blankBehind middle
        ((Blank.of_spaces blankRight).append blankAfter)
      rw [same]
      simpa [Item.entry, hasName, Item.formula, ← isCore] using whole

/-- A file holds the entries of its items in their order. -/
theorem File.held_eq {items : List Item} {text : List Char} (file : File items text) :
    held (splitLines text) = items.map Item.entry := by
  induction file with
  | last single holds => rw [splitLines_of_notMem single, holds.held_eq]
  | next single holds _ inductionHypothesis =>
      rw [splitLines_append single, held_cons, holds.held_eq, inductionHypothesis, List.map_append]

/--
A file gives one entry for each of its formulas, in their order. A formula without a name is named
by its whole text, and the text that is handed on is read as before.
-/
theorem File.entries_exact {items : List Item} {source : String} (file : File items source.toList) :
    entries source = items.map Item.entry ∧
      ∀ item ∈ items, ∀ (kind : NodeKind) (formula : Formula kind),
        Formula.read kind item.formula = .ok formula ↔
          Formula.read kind item.text = .ok formula := by
  constructor
  · exact file.held_eq
  · intro item _ kind formula
    exact item.read_formula_iff

/-- A name with a blank inside. -/
def noEnd : Name where
  text := "no end"
  nonempty := by decide
  bare := ⟨fun _ isFirst => by cases isFirst; rfl, fun _ isLast => by cases isLast; rfl⟩
  admitted := by
    have each : "no end".toList.all (fun character =>
        isAlphanumeric character || character ∈ ['_', '-', ' ', '.']) = true := by decide +kernel
    simpa using each

/-- A formula on places with this name. -/
def namedItem : Item where
  name := some noEnd
  text := " NOT(NF(terminal))"
  accepted := ⟨.place, .not (.test .terminal), Formula.read_ok_iff.2 (by decide +kernel)⟩

/-- The only colon of this formula is part of an id. -/
def unnamedItem : Item where
  name := none
  text := "AF\t(id == \"a:b\")"
  accepted := ⟨.transition, .test (.id "a:b"), Formula.read_ok_iff.2 (by decide +kernel)⟩

/-- Both items between a comment, an empty line and other white space. -/
def policies : String :=
  "# all:\n\n no end:\u00a0 NOT(NF(terminal)) \r\n AF\t(id == \"a:b\")\n"

/-- The text of the policies writes the two items. -/
theorem policies_written : File [namedItem, unnamedItem] policies.toList := by
  have remark : Line [] ([] ++ '#' :: " all:".toList) := .comment (List.forall_mem_nil _) _
  have empty : Line [] [] := .blank (List.forall_mem_nil _)
  have named : Line [namedItem] (" ".toList ++ (noEnd.text.toList ++ ([] ++ ':' ::
      ("\u00a0".toList ++ (namedItem.text.toList ++ " \r".toList))))) :=
    .named namedItem rfl (by decide) (List.forall_mem_nil _) (by decide) (by decide)
  have unnamed : Line [unnamedItem] (" ".toList ++ (unnamedItem.text.toList ++ [])) :=
    .unnamed unnamedItem rfl (by decide) (List.forall_mem_nil _)
  have lines := File.next (by decide) remark (.next (by decide) empty (.next (by decide) named
    (.next (by decide) unnamed (.last (by decide) empty))))
  convert lines
  · rfl
  · decide +kernel

/-- Both formulas are found, and the colon of the second one makes no name. -/
theorem policies_read : File [namedItem, unnamedItem] policies.toList ∧
    entries policies = [⟨"no end", "NOT(NF(terminal))"⟩,
      ⟨"AF\t(id == \"a:b\")", "AF\t(id == \"a:b\")"⟩] ∧
    Formula.read .place "NOT(NF(terminal))" = .ok (.not (.test .terminal)) := by
  obtain ⟨same, readings⟩ := File.entries_exact policies_written
  have shown : [namedItem, unnamedItem].map Item.entry = [⟨"no end", "NOT(NF(terminal))"⟩,
      ⟨"AF\t(id == \"a:b\")", "AF\t(id == \"a:b\")"⟩] := by decide +kernel
  have trimmed : namedItem.formula = "NOT(NF(terminal))" := by decide +kernel
  have accepted : Formula.read .place namedItem.text = .ok (.not (.test .terminal)) :=
    Formula.read_ok_iff.2 (by decide +kernel)
  have reread := (readings namedItem List.mem_cons_self .place _).2 accepted
  rw [trimmed] at reread
  exact ⟨policies_written, same.trans shown, reread⟩

end FormulaFile

end PetriLogic
