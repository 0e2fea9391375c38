import PetriLogic.Formula.Display
import PetriLogic.Proofs.Predicate.Layout

namespace PetriLogic

open Grammar

/-- The target of a transition has a name of its own. -/
def NodeKind.targetNames : NodeKind → List String
  | .place => []
  | .transition => ["TRANSITION_TARGET"]

namespace Formula

/-- The names that the operator of a formula is read under, of which the last one is its symbol. -/
def names {kind : NodeKind} (formula : Formula kind) : List String :=
  match formula with
  | .modal _ => kind.targetNames ++ ["MODAL"]
  | .existsUntil _ _ => ["EXISTS_UNTIL", "EXIST_UNTIL"]
  | .eventually _ => ["FORALL_EVENTUALLY", "EV"]
  | formula => [formula.symbol]

/-- The symbol of an operator is one of its names. -/
theorem symbol_mem_names {kind : NodeKind} (formula : Formula kind) :
    formula.symbol ∈ formula.names := by
  cases kind <;> cases formula <;> simp [names, symbol, NodeKind.targetNames]

/-- A word and the tokens between the brackets behind it. -/
def enclosed (word : String) (inner : List String) : List String :=
  word :: "(" :: (inner ++ [")"])

/-- The tokens write the formula, each operator under any of its names. -/
def Spells {kind : NodeKind} (formula : Formula kind) (tokens : List String) : Prop :=
  ∃ word ∈ formula.names,
    match formula with
    | .truth | .falsity => tokens = [word]
    | .test predicate => tokens = enclosed word predicate.tokens
    | .not operand | .eventually operand | .existsNext operand | .forallNext operand
    | .possibly operand | .invariantly operand | .along operand =>
        ∃ inner, operand.Spells inner ∧ tokens = enclosed word inner
    | .modal next => ∃ inner, next.Spells inner ∧ tokens = enclosed word inner
    | .and first second | .or first second | .existsUntil first second
    | .forallUntil first second =>
        ∃ left right, first.Spells left ∧ second.Spells right ∧
          tokens = enclosed word (left ++ "," :: right)
    | .forallModal later next | .existsModal later next =>
        ∃ left right, later.Spells left ∧ next.Spells right ∧
          tokens = enclosed word (left ++ "," :: right)

/-- The names of operators do not begin with a space. -/
theorem solid_word {kind : NodeKind} (formula : Formula kind) :
    ∀ word ∈ formula.names, Solid word := by
  cases kind <;> cases formula <;> simp only [names, symbol] <;> decide

/-- Every spelling begins with a word. -/
theorem Spells.exists_cons {kind : NodeKind} {formula : Formula kind} {tokens : List String}
    (spells : formula.Spells tokens) : ∃ word others, tokens = word :: others := by
  cases formula with
  | truth | falsity | test =>
      obtain ⟨word, _, same⟩ := spells
      exact ⟨_, _, same⟩
  | not | modal | eventually | existsNext | forallNext | possibly | invariantly | along =>
      obtain ⟨word, _, inner, _, same⟩ := spells
      exact ⟨_, _, same⟩
  | and | or | existsUntil | forallUntil | forallModal | existsModal =>
      obtain ⟨word, _, left, right, _, _, same⟩ := spells
      exact ⟨_, _, same⟩

/-- A word and its brackets do not begin with a space if nothing inside does. -/
theorem solid_enclosed {word : String} {inner : List String} (solid : Solid word)
    (solidInner : ∀ token ∈ inner, Solid token) : ∀ token ∈ enclosed word inner, Solid token :=
  List.forall_mem_cons.2 ⟨solid, List.forall_mem_cons.2 ⟨by decide,
    List.forall_mem_append.2 ⟨solidInner, by decide⟩⟩⟩

/-- No token of a spelling begins with a space. -/
theorem Spells.solid {kind : NodeKind} {formula : Formula kind} {tokens : List String}
    (spells : formula.Spells tokens) : ∀ token ∈ tokens, Solid token := by
  induction formula generalizing tokens with
  | truth | falsity =>
      obtain ⟨word, isName, rfl⟩ := spells
      exact List.forall_mem_singleton.2 (solid_word _ word isName)
  | test predicate =>
      obtain ⟨word, isName, rfl⟩ := spells
      exact solid_enclosed (solid_word _ word isName) predicate.solid_tokens
  | not _ solid | modal _ solid | eventually _ solid | existsNext _ solid | forallNext _ solid
  | possibly _ solid | invariantly _ solid | along _ solid =>
      obtain ⟨word, isName, inner, spellsInner, rfl⟩ := spells
      exact solid_enclosed (solid_word _ word isName) (solid spellsInner)
  | and _ _ solidFirst solidSecond | or _ _ solidFirst solidSecond
  | existsUntil _ _ solidFirst solidSecond | forallUntil _ _ solidFirst solidSecond
  | forallModal _ _ solidFirst solidSecond | existsModal _ _ solidFirst solidSecond =>
      obtain ⟨word, isName, before, after, spellsBefore, spellsAfter, rfl⟩ := spells
      exact solid_enclosed (solid_word _ word isName) (List.forall_mem_append.2
        ⟨solidFirst spellsBefore, List.forall_mem_cons.2 ⟨by decide, solidSecond spellsAfter⟩⟩)

/-- The text that a formula is written as is a layout of tokens for it. -/
def LaidOut {kind : NodeKind} (formula : Formula kind) : Prop :=
  ∃ tokens, formula.Spells tokens ∧
    ∀ rest, Laid tokens (formula.display.toList ++ rest) rest

/-- An applied operator is laid out like its operand, between brackets. -/
theorem laid_applied {word written : String} {inner : List String}
    (laid : ∀ rest, Laid inner (written.toList ++ rest) rest) (rest : List Char) :
    Laid (enclosed word inner) ((applied word [written]).toList ++ rest) rest := by
  have whole := (((laid _).append ((Laid.done rest).flush ")")).flush "(").flush word
  rw [enclosed]
  simpa [applied] using whole

section

variable {kind first second : NodeKind} {formula : Formula kind} {left : Formula first}
  {right : Formula second}

/-- An operator on one operand is laid out if the operand is. -/
theorem LaidOut.one (laidOut : left.LaidOut)
    (spelling : ∀ inner, left.Spells inner → formula.Spells (enclosed formula.symbol inner))
    (text : formula.display = applied formula.symbol [left.display]) : formula.LaidOut := by
  obtain ⟨inner, spells, laid⟩ := laidOut
  refine ⟨_, spelling inner spells, ?_⟩
  rw [text]
  exact laid_applied laid

/-- An operator on two operands is laid out if the operands are. -/
theorem LaidOut.two (laidFirst : left.LaidOut) (laidSecond : right.LaidOut)
    (spelling : ∀ before after, left.Spells before → right.Spells after →
      formula.Spells (enclosed formula.symbol (before ++ "," :: after)))
    (text : formula.display = applied formula.symbol [left.display, right.display]) :
    formula.LaidOut := by
  obtain ⟨before, spellsBefore, laidBefore⟩ := laidFirst
  obtain ⟨after, spellsAfter, laidAfter⟩ := laidSecond
  have both (rest : List Char) : Laid (before ++ "," :: after)
      ((left.display ++ ", " ++ right.display).toList ++ rest) rest := by
    obtain ⟨token, others, rfl⟩ := spellsAfter.exists_cons
    have members := (laidBefore _).append (((laidAfter rest).space isSpace_blank).flush ",")
    simpa using members
  refine ⟨_, spelling before after spellsBefore spellsAfter, ?_⟩
  rw [text]
  exact laid_applied both

end

/-- The text of every formula is a layout of one of its spellings. -/
theorem laidOut {kind : NodeKind} (formula : Formula kind) : formula.LaidOut := by
  induction formula with
  | truth | falsity =>
      exact ⟨_, ⟨_, symbol_mem_names _, rfl⟩, fun rest => (Laid.done rest).flush _⟩
  | test predicate =>
      exact ⟨_, ⟨_, symbol_mem_names _, rfl⟩, laid_applied predicate.laidOut⟩
  | not _ laid | modal _ laid | eventually _ laid | existsNext _ laid | forallNext _ laid
  | possibly _ laid | invariantly _ laid | along _ laid =>
      exact laid.one (fun inner spells => ⟨_, symbol_mem_names _, inner, spells, rfl⟩) rfl
  | and _ _ laidFirst laidSecond | or _ _ laidFirst laidSecond
  | existsUntil _ _ laidFirst laidSecond | forallUntil _ _ laidFirst laidSecond
  | forallModal _ _ laidFirst laidSecond | existsModal _ _ laidFirst laidSecond =>
      exact laidFirst.two laidSecond (fun before after spellsBefore spellsAfter =>
        ⟨_, symbol_mem_names _, before, after, spellsBefore, spellsAfter, rfl⟩) rfl

end Formula

end PetriLogic
