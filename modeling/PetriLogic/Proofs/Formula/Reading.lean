import PetriLogic.Proofs.Formula.Normal
import PetriLogic.Proofs.Formula.Scanning
import PetriLogic.Proofs.Formula.Spelling
import PetriLogic.Proofs.Grammar.Choice

namespace PetriLogic.Formula

open Grammar Rule

/-- A rule reads its tokens up to a given one behind them. -/
def Delimited {Value : Type} (rule : Rule Value) (tokens : List String) (closer : String)
    (value : Value) : Prop :=
  ∀ text rest, Laid (tokens ++ [closer]) text rest →
    rule.result text = some (value, closer.toList ++ rest)

section

variable {First Second : Type} {first : Rule First} {second : Rule Second}
  {left right : List String} {before : First} {after : Second} {text rest : List Char}

/-- One operand is read between its brackets. -/
theorem result_oneOperand (reads : Delimited first left ")" before)
    (laid : Laid ("(" :: (left ++ [")"])) text rest) :
    (oneOperand first).result text = some (before, rest) := by
  obtain ⟨inside, opened, laidInside⟩ := laid.exists_skip (by decide)
  simp only [oneOperand, result_bind, result_spaces, Option.bind_some, opened, result_word_append,
    reads inside rest laidInside, result_pure]

/-- Two operands are read between their brackets, with the comma between them. -/
theorem result_twoOperands (readsFirst : Delimited first left "," before)
    (readsSecond : Delimited second right ")" after)
    (laid : Laid ("(" :: ((left ++ "," :: right) ++ [")"])) text rest) :
    (twoOperands first second).result text = some ((before, after), rest) := by
  obtain ⟨inside, opened, laidInside⟩ := laid.exists_skip (by decide)
  have apart : (left ++ "," :: right) ++ [")"] = (left ++ [","]) ++ (right ++ [")"]) := by simp
  rw [apart] at laidInside
  obtain ⟨middle, laidFirst, laidSecond⟩ := laidInside.split
  simp only [twoOperands, result_bind, result_spaces, Option.bind_some, opened, result_word_append,
    readsFirst inside middle laidFirst, readsSecond middle rest laidSecond, result_pure]

end

/-- A predicate between brackets. -/
def ofTest {kind : NodeKind} : Rule (Formula kind) := do
  spaces
  word "("
  let tested ← predicate
  word ")"
  pure (.test tested)

/-- A formula with one operand, which stands between brackets. -/
def ofOne {Operand : Type} {kind : NodeKind} (operand : Rule Operand)
    (make : Operand → Formula kind) : Rule (Formula kind) := do
  let only ← oneOperand operand
  pure (make only)

/-- A formula with two operands, which stand between brackets. -/
def ofTwo {First Second : Type} {kind : NodeKind} (first : Rule First) (second : Rule Second)
    (make : First → Second → Formula kind) : Rule (Formula kind) := do
  let (left, right) ← twoOperands first second
  pure (make left right)

/-- The names of the operators in the order of the grammar, each with what is read behind it. -/
def operators (depth : Nat) (kind : NodeKind) : List (List String × Rule (Formula kind)) :=
  let own := spaced depth kind
  let other := spaced depth kind.other
  [(["TRUE"], pure .truth),
    (["FALSE"], pure .falsity),
    ([kind.testSymbol], ofTest),
    (["NOT"], ofOne own .not),
    (["AND"], ofTwo own own .and),
    (["OR"], ofTwo own own .or),
    (kind.targetNames ++ ["MODAL"], ofOne other .modal),
    (["EXISTS_UNTIL", "EXIST_UNTIL"], ofTwo own own .existsUntil),
    (["EXIST_MODAL"], ofTwo own other .existsModal),
    (["EXIST_NEXT"], ofOne own .existsNext),
    (["FORALL_EVENTUALLY", "EV"], ofOne own .eventually),
    (["FORALL_UNTIL"], ofTwo own own .forallUntil),
    (["FORALL_MODAL"], ofTwo own other .forallModal),
    (["FORALL_NEXT"], ofOne own .forallNext),
    (["POS"], ofOne own .possibly),
    (["INV"], ofOne own .invariantly),
    (["ALONG"], ofOne own .along)]

/-- The grammar of the operators is a choice among their names. -/
theorem operator_eq_choice (depth : Nat) (kind : NodeKind) : operator (spaced depth) kind =
    choice ((operators depth kind).map fun entry => named entry.1 entry.2) := by
  cases kind <;> rfl

/-- No name of an operator begins with another one. -/
theorem names_apart (depth : Nat) (kind : NodeKind) :
    ((operators depth kind).flatMap Prod.fst).Pairwise Apart := by
  cases kind <;> exact of_decide_eq_true rfl

/-- Every spelling is read as the normal form, up to a given nesting. -/
def Reads {kind : NodeKind} (formula : Formula kind) : Prop :=
  ∀ (depth : Nat) (tokens : List String) (text rest : List Char), formula.Spells tokens →
    tokens.length ≤ depth → Laid tokens text rest →
    (spaced depth kind).result text = some (formula.normal, skip rest)

/-- The name of an operator decides by which rule the text behind it is read. -/
theorem result_spaced_named {kind : NodeKind} {depth : Nat} {names : List String}
    {rule : Rule (Formula kind)} (entry : (names, rule) ∈ operators depth kind) {name : String}
    (isName : name ∈ names) {text more : List Char} (front : skip text = name.toList ++ more) :
    (spaced (depth + 1) kind).result text =
      (rule.result more).map fun (formula, rest) => (formula, skip rest) := by
  have chosen := result_choice_named (names_apart depth kind) entry isName more
  rw [← operator_eq_choice] at chosen
  simp only [spaced, result_bind, result_spaces, Option.bind_some, front, chosen, result_pure]
  cases rule.result more <;> rfl

/-- A formula is read when the rule for its operator reads what stands behind the name. -/
theorem result_spaced {kind : NodeKind} {formula : Formula kind} {depth : Nat} {word : String}
    {others : List String} {text rest : List Char} {rule : Nat → Rule (Formula kind)}
    (entry : ∀ depth, (formula.names, rule depth) ∈ operators depth kind)
    (isName : word ∈ formula.names) (laid : Laid (word :: others) text rest)
    (deep : (word :: others).length ≤ depth)
    (reads : ∀ depth more, others.length ≤ depth → Laid others more rest →
      (rule depth).result more = some (formula.normal, rest)) :
    (spaced depth kind).result text = some (formula.normal, skip rest) := by
  obtain ⟨depth, rfl⟩ := Nat.exists_eq_add_one_of_ne_zero (Nat.ne_zero_of_lt deep)
  obtain ⟨more, front, laidOthers⟩ := laid.exists_skip (solid_word formula word isName)
  have behind := reads depth more (Nat.le_of_succ_le_succ deep) laidOthers
  rw [result_spaced_named (entry depth) isName front, behind]
  rfl

section

variable {kind first second : NodeKind} {left : Formula first} {right : Formula second}
  {formula : Formula kind}

/-- A constant is read from its names. -/
theorem reads_constant
    (spelling : ∀ tokens, formula.Spells tokens → ∃ word ∈ formula.names, tokens = [word])
    (entry : ∀ depth, (formula.names, pure formula) ∈ operators depth kind)
    (normal : formula.normal = formula) : formula.Reads := by
  intro depth tokens text rest spells deep laid
  obtain ⟨word, isName, rfl⟩ := spelling tokens spells
  refine result_spaced entry isName laid deep fun depth more _ done => ?_
  cases done
  rw [normal, result_pure]

/-- A test is read from any spelling of its predicate. -/
theorem reads_test (tested : Predicate) : (Formula.test tested : Formula kind).Reads := by
  intro depth tokens text rest spells deep laid
  obtain ⟨word, isName, rfl⟩ := spells
  have entry (depth : Nat) :
      ((Formula.test tested : Formula kind).names, ofTest) ∈ operators depth kind := by
    simp [operators, names, symbol]
  refine result_spaced entry isName laid deep fun depth more _ laidTest => ?_
  obtain ⟨inside, opened, laidInside⟩ := laidTest.exists_skip (by decide)
  simp only [ofTest, result_bind, result_spaces, Option.bind_some, opened, result_word_append,
    result_tested laidInside, result_pure, normal]

/-- A formula is read as an operand, up to the closer behind it. -/
theorem Reads.delimited (reads : left.Reads) {depth : Nat} {tokens : List String} {closer : String}
    (solid : Solid closer) (spells : left.Spells tokens) (deep : tokens.length ≤ depth) :
    Delimited (spaced depth first) tokens closer left.normal := by
  intro text rest laid
  obtain ⟨middle, laidTokens, laidCloser⟩ := laid.split
  obtain ⟨more, closed, done⟩ := laidCloser.exists_skip solid
  cases done
  rw [reads depth tokens text middle spells deep laidTokens, closed]

/-- An operator on one operand is read from all its spellings if the operand is. -/
theorem Reads.one {make : Formula first → Formula kind} (reads : left.Reads)
    (spelling : ∀ tokens, formula.Spells tokens → ∃ word ∈ formula.names,
      ∃ inner, left.Spells inner ∧ tokens = enclosed word inner)
    (entry : ∀ depth, (formula.names, ofOne (spaced depth first) make) ∈ operators depth kind)
    (normal : formula.normal = make left.normal) : formula.Reads := by
  intro depth tokens text rest spells deep laid
  obtain ⟨word, isName, inner, spellsInner, rfl⟩ := spelling tokens spells
  refine result_spaced entry isName laid deep fun depth more deepInner laidInner => ?_
  have shorter : inner.length ≤ depth := by
    simp only [List.length_cons, List.length_append] at deepInner
    omega
  have operand := result_oneOperand (reads.delimited (by decide) spellsInner shorter) laidInner
  simp only [normal, ofOne, result_bind, result_pure, Option.bind_some, operand]

/-- An operator on two operands is read from all its spellings if the operands are. -/
theorem Reads.two {make : Formula first → Formula second → Formula kind} (readsLeft : left.Reads)
    (readsRight : right.Reads)
    (spelling : ∀ tokens, formula.Spells tokens → ∃ word ∈ formula.names,
      ∃ before after, left.Spells before ∧ right.Spells after ∧
        tokens = enclosed word (before ++ "," :: after))
    (entry : ∀ depth, (formula.names, ofTwo (spaced depth first) (spaced depth second) make) ∈
      operators depth kind)
    (normal : formula.normal = make left.normal right.normal) : formula.Reads := by
  intro depth tokens text rest spells deep laid
  obtain ⟨word, isName, before, after, spellsLeft, spellsRight, rfl⟩ := spelling tokens spells
  refine result_spaced entry isName laid deep fun depth more deepInner laidInner => ?_
  simp only [List.length_cons, List.length_append] at deepInner
  have operands := result_twoOperands
    (readsLeft.delimited (by decide) spellsLeft (show before.length ≤ depth by omega))
    (readsRight.delimited (by decide) spellsRight (show after.length ≤ depth by omega)) laidInner
  simp only [normal, ofTwo, result_bind, result_pure, Option.bind_some, operands]

end

/-- Every formula is read in each of its spellings. -/
theorem reads {kind : NodeKind} (formula : Formula kind) : formula.Reads := by
  induction formula with
  | truth | falsity =>
      exact reads_constant (fun _ spells => spells) (fun _ => by simp [operators, names, symbol]) rfl
  | test tested => exact reads_test tested
  | not _ reads | modal _ reads | eventually _ reads | existsNext _ reads | forallNext _ reads
  | possibly _ reads | invariantly _ reads | along _ reads =>
      exact reads.one (fun _ spells => spells) (fun _ => by simp [operators, names, symbol]) rfl
  | and _ _ readsFirst readsSecond | or _ _ readsFirst readsSecond
  | existsUntil _ _ readsFirst readsSecond | forallUntil _ _ readsFirst readsSecond
  | forallModal _ _ readsFirst readsSecond | existsModal _ _ readsFirst readsSecond =>
      exact readsFirst.two readsSecond (fun _ spells => spells)
        (fun _ => by simp [operators, names, symbol]) rfl

/-- A whole formula is read with room for as much nesting as its text can have. -/
theorem result_formula (kind : NodeKind) (text : List Char) :
    (Formula.formula kind).result text = (spaced (text.length + 1) kind).result text := by
  rw [Rule.result, Rule.result, Formula.formula, Unread.ofList]

/-- A formula is read from every layout of each of its spellings. -/
theorem read_of_layout {kind : NodeKind} {formula : Formula kind} {tokens : List String}
    {source : String} (spells : formula.Spells tokens) (layout : Layout tokens source.toList) :
    Formula.read kind source = .ok formula.normal := by
  obtain ⟨blanks, blank, laid⟩ := layout
  have short := laid.length_le spells.solid
  have whole := formula.reads (source.toList.length + 1) tokens _ _ spells (by omega) laid
  rw [skip_of_blank blank, ← result_formula] at whole
  rw [Formula.read, Grammar.read_eq_ok whole]
  rfl

/--
Reading undoes writing in any layout and with any names of the operators.
Groups of fewer than two members are lost, which changes neither the value nor the text.
-/
theorem layout_exact {kind : NodeKind} (formula : Formula kind) :
    (∀ (tokens : List String) (source : String), formula.Spells tokens →
      Layout tokens source.toList → Formula.read kind source = .ok formula.normal) ∧
    (∃ tokens, formula.Spells tokens ∧ Layout tokens formula.display.toList) ∧
    (∀ (set : PathSet) (handle : Handle),
      formula.normal.holds set handle = formula.holds set handle) ∧
    formula.normal.display = formula.display ∧
    (formula.isGrouped = true → formula.normal = formula) := by
  obtain ⟨tokens, spells, laid⟩ := formula.laidOut
  have written := laid []
  rw [List.append_nil] at written
  exact ⟨fun _ _ => read_of_layout, ⟨tokens, spells, [], by simp, written⟩,
    fun set => congrFun (formula.holds_normal set), formula.display_normal, normal_of_isGrouped⟩

/-- A group of one and an empty group stand next to a quoted bracket. -/
def aliased : Formula .transition :=
  .modal (.existsUntil .truth (.test (.all [.any [.tag "(\"\\"], .not (.all [])])))

/-- The tokens of the formula, with other names for two of its operators. -/
def aliasedTokens : List String :=
  ["TRANSITION_TARGET", "(", "EXISTS_UNTIL", "(", "TRUE", ",", "NF", "(", "(", "tag", "(",
    "\"(\\\"\\\\\"", ")", "&&", "!", "(", "TRUE", ")", ")", ")", ")", ")"]

/-- The tokens with a tab, a line feed and further white space between them. -/
def aliasedText : String :=
  " TRANSITION_TARGET(\tEXISTS_UNTIL ( TRUE,\nNF((tag ( \"(\\\"\\\\\" )&&! (TRUE ))) ) )\r"

/-- Each group of this predicate has several members. -/
def severalTested : Formula .place := .test (.any [.terminal, .tag "é", .not .initial])

/-- The text is read as the formula without the two needless groups, through its other names. -/
theorem aliased_read : aliased.Spells aliasedTokens ∧ Layout aliasedTokens aliasedText.toList ∧
    Formula.read .transition aliasedText =
      .ok (.modal (.existsUntil .truth (.test (.all [.tag "(\"\\", .not .truth])))) ∧
    severalTested.isGrouped = true ∧ severalTested.normal = severalTested := by
  have hold : Spells (.truth : Formula .place) ["TRUE"] := ⟨"TRUE", by decide, rfl⟩
  have goal : Spells (.test (.all [.any [.tag "(\"\\"], .not (.all [])]) : Formula .place) _ :=
    ⟨"NF", by decide, rfl⟩
  have spells : aliased.Spells aliasedTokens := ⟨"TRANSITION_TARGET", by decide, _,
    ⟨"EXISTS_UNTIL", by decide, _, _, hold, goal, rfl⟩, by decide⟩
  have stripped : strip aliasedTokens aliasedText.toList = some ['\r'] := by decide
  have layout : Layout aliasedTokens aliasedText.toList := layout_of_strip stripped (by decide)
  have several : severalTested.isGrouped = true := by decide
  exact ⟨spells, layout, (layout_exact aliased).1 _ _ spells layout, several,
    (layout_exact severalTested).2.2.2.2 several⟩

end PetriLogic.Formula
