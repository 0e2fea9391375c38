import PetriLogic.Proofs.Formula.Leaf

namespace PetriLogic

open Grammar Rule

namespace Grammar

variable {Value Result : Type}

/-- Whatever a choice reads, one of its rules reads. -/
theorem exists_of_result_choice {rules : List (Rule Value)} {text rest : List Char} {value : Value}
    (reads : (choice rules).result text = some (value, rest)) :
    ∃ rule ∈ rules, rule.result text = some (value, rest) := by
  induction rules with
  | nil => cases reads
  | cons rule rules inductionHypothesis =>
      rw [result_choice_cons, Option.or_eq_some_iff] at reads
      rcases reads with chosen | ⟨_, later⟩
      · exact ⟨rule, List.mem_cons_self, chosen⟩
      · obtain ⟨other, member, chosen⟩ := inductionHypothesis later
        exact ⟨other, List.mem_cons_of_mem _ member, chosen⟩

/-- Whatever is read behind a name, one of the names stands in front of it. -/
theorem exists_of_result_named {names : List String} {rule : Rule Value} {text rest : List Char}
    {value : Value} (reads : (named names rule).result text = some (value, rest)) :
    ∃ name ∈ names, ∃ more, text = name.toList ++ more ∧
      rule.result more = some (value, rest) := by
  obtain ⟨_, more, isNamed, behind⟩ := result_bind_iff.1 reads
  obtain ⟨_, member, chosen⟩ := exists_of_result_choice isNamed
  obtain ⟨name, isName, rfl⟩ := List.mem_map.1 member
  exact ⟨name, isName, more, result_word_iff.1 chosen, behind⟩

/-- Whatever the rule reads belongs to the language of its value. -/
def Rule.Sound (rule : Rule Value) (language : Value → List Char → Prop) : Prop :=
  ∀ text value rest, rule.result text = some (value, rest) →
    ∃ read, language value read ∧ text = read ++ rest

/-- The value is read from every short text of the language, up to the closer behind it. -/
def Rule.Complete (rule : Rule Value) (limit : Nat) (closer : Char) (value : Value)
    (language : List Char → Prop) : Prop :=
  ∀ read rest, language read → read.length < limit →
    rule.result (read ++ closer :: rest) = some (value, closer :: rest)

/-- A text of the language with any spaces around it. -/
def Around (language : List Char → Prop) (text : List Char) : Prop :=
  ∃ before core after, (∀ character ∈ before, isSpace character = true) ∧
    (∀ character ∈ after, isSpace character = true) ∧ language core ∧
    text = before ++ (core ++ after)

namespace Around

variable {language other : List Char → Prop} {text : List Char}

/-- A text of the language needs no spaces around it. -/
theorem self (isText : language text) : Around language text :=
  ⟨[], text, [], List.forall_mem_nil _, List.forall_mem_nil _, isText, (List.append_nil _).symm⟩

/-- A larger language has the same texts with spaces around them. -/
theorem imp (around : Around language text) (larger : ∀ core, language core → other core) :
    Around other text := by
  obtain ⟨before, core, after, blankBefore, blankAfter, isText, same⟩ := around
  exact ⟨before, core, after, blankBefore, blankAfter, larger core isText, same⟩

/-- Spaces may stand around a text that has spaces around it already. -/
theorem join (around : Around (Around language) text) : Around language text := by
  obtain ⟨before, _, after, blankBefore, blankAfter, inner, rfl⟩ := around
  obtain ⟨more, core, behind, blankMore, blankBehind, isText, rfl⟩ := inner
  exact ⟨before ++ more, core, behind ++ after, List.forall_mem_append.2 ⟨blankBefore, blankMore⟩,
    List.forall_mem_append.2 ⟨blankBehind, blankAfter⟩, isText, by simp⟩

end Around

/-- One of the names, and between brackets behind it a text of the language. -/
def Applied (names : List String) (language : List Char → Prop) (text : List Char) : Prop :=
  ∃ name ∈ names, ∃ blanks inside, (∀ character ∈ blanks, isSpace character = true) ∧
    language inside ∧ text = name.toList ++ (blanks ++ '(' :: (inside ++ [')']))

/-- A text of each language with a comma between them. -/
def Listed (first second : List Char → Prop) (text : List Char) : Prop :=
  ∃ left right, first left ∧ second right ∧ text = left ++ ',' :: right

end Grammar

namespace Formula

/-- Any names of the operators, with any spaces around the operands and the brackets. -/
def Written {kind : NodeKind} (formula : Formula kind) (text : List Char) : Prop :=
  match formula with
  | .truth | .falsity => text = formula.symbol.toList
  | .test predicate =>
      Applied formula.names
        (fun inside => Predicate.read (String.ofList inside) = .ok predicate) text
  | .not operand | .eventually operand | .existsNext operand | .forallNext operand
  | .possibly operand | .invariantly operand | .along operand =>
      Applied formula.names (Around (operand.Written ·)) text
  | .modal next => Applied formula.names (Around (next.Written ·)) text
  | .and first second | .or first second | .existsUntil first second
  | .forallUntil first second =>
      Applied formula.names (Listed (Around (first.Written ·)) (Around (second.Written ·))) text
  | .forallModal later next | .existsModal later next =>
      Applied formula.names (Listed (Around (later.Written ·)) (Around (next.Written ·))) text

/-- One operand is read exactly between two brackets, the first one behind any spaces. -/
theorem result_oneOperand_iff {Value : Type} {operand : Rule Value} {text rest : List Char}
    {value : Value} :
    (oneOperand operand).result text = some (value, rest) ↔
      ∃ blanks inside, (∀ character ∈ blanks, isSpace character = true) ∧
        operand.result inside = some (value, ')' :: rest) ∧ text = blanks ++ '(' :: inside := by
  constructor
  · intro reads
    obtain ⟨_, middle, skips, later⟩ := result_bind_iff.1 reads
    obtain ⟨_, inside, opens, later⟩ := result_bind_iff.1 later
    obtain ⟨only, behind, readsOnly, later⟩ := result_bind_iff.1 later
    obtain ⟨_, last, closes, same⟩ := result_bind_iff.1 later
    cases same
    obtain ⟨_, blanks, blank, rfl⟩ := Ensures.spaces text _ middle skips
    rw [result_word_iff.1 closes] at readsOnly
    rw [result_word_iff.1 opens]
    exact ⟨blanks, inside, blank, readsOnly, rfl⟩
  · rintro ⟨blanks, inside, blank, reads, rfl⟩
    have opened : skip (blanks ++ '(' :: inside) = "(".toList ++ inside := skip_append blank _
    have closed : (word ")").result (')' :: rest) = some ((), rest) := result_word_append ")" rest
    simp only [oneOperand, result_bind, result_spaces, Option.bind_some, opened,
      result_word_append, reads, closed, result_pure]

section

variable {First Second : Type} {kind : NodeKind} {first : Rule First} {second : Rule Second}

/-- Two operands, without the brackets around them. -/
def both (first : Rule First) (second : Rule Second) : Rule (First × Second) := do
  let left ← first
  word ","
  let right ← second
  pure (left, right)

/-- A test is read like an operator on a predicate. -/
theorem result_ofTest (text : List Char) : (ofTest : Rule (Formula kind)).result text =
    (ofOne Formula.predicate Formula.test).result text := by
  simp only [ofTest, ofOne, oneOperand, result_bind, Option.bind_assoc, result_pure]
  rfl

/-- Two operands are read like one pair of operands. -/
theorem result_ofTwo (make : First → Second → Formula kind) (text : List Char) :
    (ofTwo first second make).result text =
      (ofOne (both first second) fun operands => make operands.1 operands.2).result text := by
  simp only [ofTwo, ofOne, twoOperands, oneOperand, both, result_bind, Option.bind_assoc,
    result_pure, Option.bind_some]

/-- A predicate in a formula is read from a text of this predicate. -/
theorem sound_predicate : Formula.predicate.Sound
    fun tested inside => Predicate.read (String.ofList inside) = .ok tested := by
  intro text tested rest reads
  obtain ⟨read, same, accepted⟩ := exists_of_result_predicate reads
  exact ⟨read, accepted, same⟩

/-- Two operands are read from texts of both, with a comma between them. -/
theorem sound_both {before : First → List Char → Prop} {after : Second → List Char → Prop}
    (soundFirst : first.Sound before) (soundSecond : second.Sound after) :
    (both first second).Sound fun operands => Listed (before operands.1) (after operands.2) := by
  intro text operands rest reads
  obtain ⟨left, middle, readsLeft, later⟩ := result_bind_iff.1 reads
  obtain ⟨_, behind, comma, later⟩ := result_bind_iff.1 later
  obtain ⟨right, last, readsRight, same⟩ := result_bind_iff.1 later
  rw [result_pure] at same
  cases same
  obtain ⟨leftText, isLeft, rfl⟩ := soundFirst _ _ _ readsLeft
  obtain ⟨rightText, isRight, rfl⟩ := soundSecond _ _ _ readsRight
  rw [result_word_iff.1 comma]
  exact ⟨leftText ++ ',' :: rightText, ⟨leftText, rightText, isLeft, isRight, rfl⟩, by simp⟩

/-- What the rule reads behind any of the names makes a text of its formula. -/
def Follows (names : List String) (rule : Rule (Formula kind)) : Prop :=
  ∀ name ∈ names, rule.Sound fun formula tail => formula.Written (name.toList ++ tail)

/-- A constant reads nothing behind its symbol. -/
theorem follows_constant {formula : Formula kind} {symbol : String}
    (written : formula.Written symbol.toList) : Follows [symbol] (pure formula) := by
  intro name isName text found rest reads
  cases reads
  rw [List.mem_singleton.1 isName]
  exact ⟨[], by simpa using written, rfl⟩

/-- An operator on one operand is read behind its names from texts of it. -/
theorem follows_ofOne {Operand : Type} {operand : Rule Operand}
    {language : Operand → List Char → Prop} {make : Operand → Formula kind} {names : List String}
    (sound : operand.Sound language)
    (written : ∀ value text, Applied names (language value) text → (make value).Written text) :
    Follows names (ofOne operand make) := by
  intro name isName text formula rest reads
  obtain ⟨value, behind, readsOne, same⟩ := result_bind_iff.1 reads
  rw [result_pure] at same
  cases same
  obtain ⟨blanks, inside, blank, readsInside, rfl⟩ := result_oneOperand_iff.1 readsOne
  obtain ⟨read, isText, rfl⟩ := sound _ _ _ readsInside
  have whole := written value _ ⟨name, isName, blanks, read, blank, isText, rfl⟩
  exact ⟨blanks ++ '(' :: (read ++ [')']), whole, by simp⟩

/-- A test is read behind its symbol from texts of it. -/
theorem follows_ofTest : Follows [kind.testSymbol] (ofTest : Rule (Formula kind)) := by
  intro name isName text formula rest reads
  rw [result_ofTest] at reads
  exact follows_ofOne sound_predicate (fun _ _ => id) name isName text formula rest reads

/-- An operator on two operands is read behind its names from texts of it. -/
theorem follows_ofTwo {before : First → List Char → Prop} {after : Second → List Char → Prop}
    {make : First → Second → Formula kind} {names : List String} (soundFirst : first.Sound before)
    (soundSecond : second.Sound after)
    (written : ∀ left right text, Applied names (Listed (before left) (after right)) text →
      (make left right).Written text) :
    Follows names (ofTwo first second make) := by
  intro name isName text formula rest reads
  rw [result_ofTwo] at reads
  exact follows_ofOne (sound_both soundFirst soundSecond) (fun _ => written _ _)
    name isName text formula rest reads

/-- Every operator is read behind its names from texts of it, if its operands are. -/
theorem follows_operators {depth : Nat}
    (sound : ∀ kind, (spaced depth kind).Sound fun formula => Around formula.Written)
    (kind : NodeKind) : ∀ entry ∈ operators depth kind, Follows entry.1 entry.2 := by
  have own := sound kind
  have other := sound kind.other
  simp only [operators, List.forall_mem_cons]
  exact ⟨follows_constant rfl, follows_constant rfl, follows_ofTest,
    follows_ofOne own fun _ _ => id, follows_ofTwo own own fun _ _ _ => id,
    follows_ofTwo own own fun _ _ _ => id, follows_ofOne other fun _ _ => id,
    follows_ofTwo own own fun _ _ _ => id, follows_ofTwo own other fun _ _ _ => id,
    follows_ofOne own fun _ _ => id, follows_ofOne own fun _ _ => id,
    follows_ofTwo own own fun _ _ _ => id, follows_ofTwo own other fun _ _ _ => id,
    follows_ofOne own fun _ _ => id, follows_ofOne own fun _ _ => id,
    follows_ofOne own fun _ _ => id, follows_ofOne own fun _ _ => id, List.forall_mem_nil _⟩

/-- Every formula is read from a text of this formula. -/
theorem sound_spaced (depth : Nat) (kind : NodeKind) :
    (spaced depth kind).Sound fun formula => Around formula.Written := by
  induction depth generalizing kind with
  | zero =>
      intro text formula rest reads
      cases reads
  | succ depth inductionHypothesis =>
      intro text formula rest reads
      -- The spaces on both sides are read around the choice, which one operator settles.
      obtain ⟨_, middle, skips, later⟩ := result_bind_iff.1 reads
      obtain ⟨found, behind, operates, later⟩ := result_bind_iff.1 later
      obtain ⟨_, last, skipsAgain, same⟩ := result_bind_iff.1 later
      rw [result_pure] at same
      cases same
      obtain ⟨_, before, blankBefore, rfl⟩ := Ensures.spaces _ _ _ skips
      obtain ⟨_, after, blankAfter, rfl⟩ := Ensures.spaces _ _ _ skipsAgain
      rw [operator_eq_choice] at operates
      obtain ⟨_, member, chosen⟩ := exists_of_result_choice operates
      obtain ⟨entry, isEntry, rfl⟩ := List.mem_map.1 member
      obtain ⟨name, isName, more, rfl, readsMore⟩ := exists_of_result_named chosen
      obtain ⟨tail, written, rfl⟩ :=
        follows_operators inductionHypothesis kind entry isEntry name isName _ _ _ readsMore
      exact ⟨before ++ (name.toList ++ tail ++ after),
        ⟨before, name.toList ++ tail, after, blankBefore, blankAfter, written, rfl⟩, by simp⟩

/-- A predicate in a formula is read from each of its texts. -/
theorem complete_predicate (tested : Predicate) (limit : Nat) :
    Formula.predicate.Complete limit ')' tested
      fun inside => Predicate.read (String.ofList inside) = .ok tested :=
  fun read _ accepted _ => result_predicate_iff.2 ⟨read, rfl, accepted⟩

/-- Two operands are read from texts of both, with a comma between them. -/
theorem complete_both {limit : Nat} {left : First} {right : Second}
    {before after : List Char → Prop} (completeFirst : first.Complete limit ',' left before)
    (completeSecond : second.Complete limit ')' right after) :
    (both first second).Complete limit ')' (left, right) (Listed before after) := by
  rintro _ rest ⟨leftText, rightText, isLeft, isRight, rfl⟩ short
  simp only [List.length_append, List.length_cons] at short
  have readsLeft := completeFirst leftText (rightText ++ ')' :: rest) isLeft (by omega)
  have readsRight := completeSecond rightText rest isRight (by omega)
  have comma : (word ",").result (',' :: (rightText ++ ')' :: rest)) =
      some ((), rightText ++ ')' :: rest) := result_word_append "," _
  simp only [both, result_bind, List.append_assoc, List.cons_append, readsLeft, Option.bind_some,
    comma, readsRight, result_pure]

/-- Every text of the formula that is short enough is read as the formula. -/
def Recognised (formula : Formula kind) : Prop :=
  ∀ depth read rest, Around formula.Written read → read.length < depth →
    (spaced depth kind).result (read ++ rest) = some (formula, skip rest)

/-- A recognised formula is read as an operand, up to the closer behind it. -/
theorem Recognised.complete {formula : Formula kind} (recognised : formula.Recognised)
    {closer : Char} (solid : isSpace closer = false) (depth : Nat) :
    (spaced depth kind).Complete depth closer formula (Around formula.Written) := by
  intro read rest written short
  have stops : skip (closer :: rest) = closer :: rest := by simp [skip, solid]
  rw [recognised depth read (closer :: rest) written short, stops]

/-- It is enough that the rule for the operator reads what stands behind each name. -/
theorem recognised_of_tail {formula : Formula kind} {rule : Nat → Rule (Formula kind)}
    (entry : ∀ depth, (formula.names, rule depth) ∈ operators depth kind)
    (reads : ∀ depth core, formula.Written core → core.length ≤ depth →
      ∃ name ∈ formula.names, ∃ tail, core = name.toList ++ tail ∧
        ∀ rest, (rule depth).result (tail ++ rest) = some (formula, rest)) :
    formula.Recognised := by
  rintro depth _ rest ⟨before, core, after, blankBefore, blankAfter, isCore, rfl⟩ short
  obtain ⟨depth, rfl⟩ := Nat.exists_eq_add_one_of_ne_zero (Nat.ne_zero_of_lt short)
  -- The operator takes one level, and the operands have to do with the levels that are left.
  simp only [List.length_append] at short
  obtain ⟨name, isName, tail, rfl, readsTail⟩ := reads depth core isCore (by omega)
  have front : skip (before ++ (name.toList ++ tail ++ after) ++ rest) =
      name.toList ++ (tail ++ (after ++ rest)) := by
    simp only [List.append_assoc, skip_append blankBefore,
      (solid_word formula name isName).skip_append]
  rw [result_spaced_named (entry depth) isName front, readsTail]
  exact congrArg (fun rest => some (formula, rest)) (skip_append blankAfter rest)

/-- A constant is recognised by its symbol. -/
theorem recognised_constant {formula : Formula kind}
    (entry : ∀ depth, (formula.names, pure formula) ∈ operators depth kind)
    (written : ∀ text, formula.Written text → text = formula.symbol.toList) :
    formula.Recognised := by
  apply recognised_of_tail entry
  intro depth core isCore _
  rw [written core isCore]
  exact ⟨formula.symbol, symbol_mem_names formula, [], (List.append_nil _).symm, fun _ => rfl⟩

/-- An operator is recognised if its operand is read from each of its texts. -/
theorem recognised_applied {Operand : Type} {operand : Nat → Rule Operand} {value : Operand}
    {formula : Formula kind} {language : List Char → Prop} {rule : Nat → Rule (Formula kind)}
    (entry : ∀ depth, (formula.names, rule depth) ∈ operators depth kind)
    (complete : ∀ depth, (operand depth).Complete depth ')' value language)
    (reads : ∀ depth text rest, (oneOperand (operand depth)).result text = some (value, rest) →
      (rule depth).result text = some (formula, rest))
    (written : ∀ text, formula.Written text → Applied formula.names language text) :
    formula.Recognised := by
  apply recognised_of_tail entry
  intro depth core isCore short
  obtain ⟨name, isName, blanks, inside, blank, isInside, rfl⟩ := written core isCore
  simp only [List.length_append, List.length_cons] at short
  refine ⟨name, isName, _, rfl, fun rest => reads depth _ rest ?_⟩
  have readsInside := complete depth inside rest isInside (by omega)
  exact result_oneOperand_iff.2 ⟨blanks, _, blank, readsInside, by simp⟩

/-- An operator on one operand is read when its operand is. -/
theorem result_ofOne {Operand : Type} {operand : Rule Operand} {make : Operand → Formula kind}
    {value : Operand} {text rest : List Char}
    (reads : (oneOperand operand).result text = some (value, rest)) :
    (ofOne operand make).result text = some (make value, rest) := by
  simp only [ofOne, result_bind, reads, Option.bind_some, result_pure]

/-- A test is recognised by the texts of its predicate. -/
theorem recognised_test (tested : Predicate) : (Formula.test tested : Formula kind).Recognised := by
  have entry (depth : Nat) :
      ((Formula.test tested : Formula kind).names, ofTest) ∈ operators depth kind := by
    simp [operators, names, symbol]
  apply recognised_applied entry (complete_predicate tested)
  · intro depth text rest reads
    rw [result_ofTest, result_ofOne reads]
  · exact fun _ => id

end

section

variable {kind first second : NodeKind} {left : Formula first} {right : Formula second}

/-- An operator on one operand is recognised if the operand is. -/
theorem Recognised.one {make : Formula first → Formula kind} (recognised : left.Recognised)
    (entry : ∀ depth,
      ((make left).names, ofOne (spaced depth first) make) ∈ operators depth kind)
    (written : ∀ text, (make left).Written text →
      Applied (make left).names (Around left.Written) text) : (make left).Recognised :=
  recognised_applied entry (recognised.complete rfl) (fun _ _ _ => result_ofOne) written

/-- An operator on two operands is recognised if both of them are. -/
theorem Recognised.two {make : Formula first → Formula second → Formula kind}
    (recognisedLeft : left.Recognised) (recognisedRight : right.Recognised)
    (entry : ∀ depth, ((make left right).names, ofTwo (spaced depth first) (spaced depth second)
      make) ∈ operators depth kind)
    (written : ∀ text, (make left right).Written text →
      Applied (make left right).names (Listed (Around left.Written) (Around right.Written)) text) :
    (make left right).Recognised := by
  have complete (depth : Nat) :=
    complete_both (recognisedLeft.complete rfl depth) (recognisedRight.complete rfl depth)
  apply recognised_applied entry complete _ written
  intro depth text rest reads
  rw [result_ofTwo, result_ofOne reads]

end

/-- Every formula is recognised. -/
theorem recognised {kind : NodeKind} (formula : Formula kind) : formula.Recognised := by
  induction formula with
  | truth | falsity =>
      exact recognised_constant (fun _ => by simp [operators, names, symbol]) fun _ => id
  | test tested => exact recognised_test tested
  | not _ operand | modal _ operand | eventually _ operand | existsNext _ operand
  | forallNext _ operand | possibly _ operand | invariantly _ operand | along _ operand =>
      exact operand.one (fun _ => by simp [operators, names, symbol]) fun _ => id
  | and _ _ first second | or _ _ first second | existsUntil _ _ first second
  | forallUntil _ _ first second | forallModal _ _ first second | existsModal _ _ first second =>
      exact first.two second (fun _ => by simp [operators, names, symbol]) fun _ => id

/-- The texts that are read as a formula are those that the grammar has for it. -/
theorem read_iff_written {kind : NodeKind} {source : String} {formula : Formula kind} :
    Formula.read kind source = .ok formula ↔ Around formula.Written source.toList := by
  rw [read_ok_iff]
  constructor
  · intro reads
    obtain ⟨read, written, same⟩ := sound_spaced _ kind _ _ _ reads
    rwa [same, List.append_nil]
  · intro written
    have reads := formula.recognised _ source.toList [] written (Nat.lt_succ_self _)
    rwa [List.append_nil] at reads

end Formula

end PetriLogic
