import PetriLogic.Proofs.Grammar.Result

namespace PetriLogic.Grammar

/-- Spaces in front of a text are skipped. -/
theorem skip_append {blanks : List Char} (blank : ∀ character ∈ blanks, isSpace character = true)
    (rest : List Char) : skip (blanks ++ rest) = skip rest :=
  List.dropWhile_append_of_pos blank

/-- Nothing is left when spaces alone are skipped. -/
theorem skip_of_blank {blanks : List Char}
    (blank : ∀ character ∈ blanks, isSpace character = true) : skip blanks = [] := by
  have skipped := skip_append blank []
  rwa [List.append_nil] at skipped

/-- A word is read where it stands. -/
theorem result_word_append (token : String) (rest : List Char) :
    (word token).result (token.toList ++ rest) = some ((), rest) := by
  rw [result_word, afterAppend, Option.map_some]

/-- A token does not begin with a space. -/
def Solid (token : String) : Prop :=
  ∃ first others, token.toList = first :: others ∧ isSpace first = false

instance (token : String) : Decidable (Solid token) :=
  match front : token.toList with
  | [] => isFalse fun solid => by
      obtain ⟨first, others, same, _⟩ := solid
      cases front.symm.trans same
  | first :: others => decidable_of_iff (isSpace first = false)
      ⟨fun apart => ⟨first, others, front, apart⟩, fun solid => by
        obtain ⟨other, rest, same, apart⟩ := solid
        cases front.symm.trans same
        exact apart⟩

/-- Nothing is skipped in front of a solid token. -/
theorem Solid.skip_append {token : String} (solid : Solid token) (rest : List Char) :
    skip (token.toList ++ rest) = token.toList ++ rest := by
  obtain ⟨first, others, same, apart⟩ := solid
  simp [same, skip, apart]

/-- The tokens stand at the front of a text in their order, with any spaces before each of them. -/
inductive Laid : List String → List Char → List Char → Prop where
  | done (rest : List Char) : Laid [] rest rest
  | token {tokens : List String} {blanks text rest : List Char} (token : String)
      (blank : ∀ character ∈ blanks, isSpace character = true) (later : Laid tokens text rest) :
      Laid (token :: tokens) (blanks ++ (token.toList ++ text)) rest

/-- A layout of tokens is a text of them with any spaces around and between them. -/
def Layout (tokens : List String) (text : List Char) : Prop :=
  ∃ blanks : List Char, (∀ character ∈ blanks, isSpace character = true) ∧
    Laid tokens text blanks

namespace Laid

variable {token : String} {tokens : List String} {text rest : List Char}

/-- A token without spaces before it. -/
theorem flush (token : String) (later : Laid tokens text rest) :
    Laid (token :: tokens) (token.toList ++ text) rest :=
  @Laid.token tokens [] text rest token (by simp) later

/-- One more space may stand in front of the tokens. -/
theorem space {character : Char} (blank : isSpace character = true)
    (laid : Laid (token :: tokens) text rest) :
    Laid (token :: tokens) (character :: text) rest := by
  cases laid with
  | @token _ blanks text _ _ others later =>
      exact @Laid.token tokens (character :: blanks) text rest token
        (List.forall_mem_cons.2 ⟨blank, others⟩) later

/-- Behind the spaces, the first token stands in front of the others. -/
theorem exists_skip (laid : Laid (token :: tokens) text rest) (solid : Solid token) :
    ∃ more, skip text = token.toList ++ more ∧ Laid tokens more rest := by
  cases laid with
  | token _ blank later => exact ⟨_, by rw [skip_append blank, solid.skip_append], later⟩

/-- Tokens that stand in a row can be split anywhere. -/
theorem split {first second : List String} (laid : Laid (first ++ second) text rest) :
    ∃ middle, Laid first text middle ∧ Laid second middle rest := by
  induction first generalizing text with
  | nil => exact ⟨text, .done text, laid⟩
  | cons token first inductionHypothesis =>
      cases laid with
      | token _ blank later =>
          obtain ⟨middle, before, after⟩ := inductionHypothesis later
          exact ⟨middle, .token token blank before, after⟩

/-- Tokens can stand behind others. -/
theorem append {first second : List String} {middle : List Char} (before : Laid first text middle)
    (after : Laid second middle rest) : Laid (first ++ second) text rest := by
  induction before with
  | done => exact after
  | token token blank _ inductionHypothesis => exact .token token blank (inductionHypothesis after)

/-- Each solid token takes a character at least. -/
theorem length_le (laid : Laid tokens text rest) (solid : ∀ token ∈ tokens, Solid token) :
    tokens.length + rest.length ≤ text.length := by
  induction laid with
  | done => simp
  | @token tokens blanks text rest token _ _ inductionHypothesis =>
      obtain ⟨first, others, same, _⟩ := solid token List.mem_cons_self
      have shorter := inductionHypothesis fun other member =>
        solid other (List.mem_cons_of_mem _ member)
      simp only [same, List.length_cons, List.length_append]
      omega

/-- The text behind the tokens is no longer than the whole. -/
theorem rest_length_le (laid : Laid tokens text rest) : rest.length ≤ text.length := by
  induction laid with
  | done => exact Nat.le_refl _
  | token token _ _ inductionHypothesis =>
      simp only [List.length_append]
      omega

/-- What was read can be followed by any other text. -/
theorem exists_read (laid : Laid tokens text rest) :
    ∃ read, text = read ++ rest ∧ ∀ other, Laid tokens (read ++ other) other := by
  induction laid with
  | done rest => exact ⟨[], rfl, .done⟩
  | @token tokens blanks text rest token blank _ inductionHypothesis =>
      obtain ⟨read, rfl, again⟩ := inductionHypothesis
      refine ⟨blanks ++ (token.toList ++ read), by simp, fun other => ?_⟩
      simp only [List.append_assoc]
      exact .token token blank (again other)

end Laid

/-- The text behind the tokens at its front, if they stand there. -/
def strip : List String → List Char → Option (List Char)
  | [], text => some text
  | token :: tokens, text => (after? token.toList (skip text)).bind (strip tokens)

/-- Tokens that can be stripped stand at the front of the text. -/
theorem Laid.of_strip {tokens : List String} {text rest : List Char}
    (stripped : strip tokens text = some rest) : Laid tokens text rest := by
  induction tokens generalizing text with
  | nil =>
      cases stripped
      exact .done rest
  | cons token tokens inductionHypothesis =>
      obtain ⟨more, front, later⟩ := Option.bind_eq_some_iff.1 stripped
      have laid := @Laid.token tokens (text.takeWhile isSpace) more rest token
        (List.all_eq_true.1 List.all_takeWhile) (inductionHypothesis later)
      rwa [← splitAfter front, skip, List.takeWhile_append_dropWhile] at laid

/-- A layout is recognised by taking the tokens away one by one. -/
theorem layout_of_strip {tokens : List String} {text rest : List Char}
    (stripped : strip tokens text = some rest) (blank : rest.all isSpace = true) :
    Layout tokens text :=
  ⟨rest, List.all_eq_true.1 blank, .of_strip stripped⟩

end PetriLogic.Grammar
