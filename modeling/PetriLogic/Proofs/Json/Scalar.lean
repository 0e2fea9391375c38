import PetriLogic.Json.Tree
import PetriLogic.Json.Value
import Mathlib.Data.List.Basic

namespace PetriLogic.Json

open PetriLogic.Json.Tree (Piece pieces? assemble? text? unit? decimalDigit? digits whole?
  numeral? scalar? keyword?)

/-- Control characters are written with two hexadecimal digits. -/
theorem unit?_digitChar : ∀ code < 32,
    unit? '0' '0' (Nat.digitChar (code / 16)) (Nat.digitChar (code % 16)) = some code := by
  decide

/-- The unit of a control character is a whole character. -/
theorem ofUnit_of_lt {code : Nat} (small : code < 32) :
    Piece.ofUnit code = .whole (Char.ofNat code) := by
  rw [Piece.ofUnit, if_neg (by omega), if_neg (by omega)]

/-- A short escape stands for one character. -/
theorem pieces?_escape {letter character : Char} (short : Tree.shortEscape? letter = some character)
    (rest : List Char) :
    pieces? ('\\' :: letter :: rest) =
      (pieces? rest).map fun (pieces, rest) => (.whole character :: pieces, rest) := by
  have other : letter ≠ 'u' := by
    rintro rfl
    cases short
  rw [pieces?]
  · simp only [short]
    cases pieces? rest <;> rfl
  · intro _ _ _ _ _ same _
    exact other same

/-- A character that needs no escape stands for itself. -/
theorem pieces?_plain {character : Char} (quote : character ≠ '"') (backslash : character ≠ '\\')
    (control : ¬character.toNat < 0x20) (rest : List Char) :
    pieces? (character :: rest) =
      (pieces? rest).map fun (pieces, rest) => (.whole character :: pieces, rest) := by
  rw [pieces?, if_neg quote, if_neg (by simp [backslash, control])]
  · cases pieces? rest <;> rfl
  · intro _ _ _ _ _ same
    exact absurd same backslash
  · intro _ _ same
    exact absurd same backslash

/-- A character is read back from its code, whatever follows. -/
theorem pieces?_encodeCharacter (character : Char) (rest : List Char) :
    pieces? (Value.encodeCharacter character ++ rest) =
      (pieces? rest).map fun (pieces, rest) => (.whole character :: pieces, rest) := by
  unfold Value.encodeCharacter
  split_ifs with quote backslash backspace tab feed formFeed carriage control
  · subst quote
    exact pieces?_escape rfl rest
  · subst backslash
    exact pieces?_escape rfl rest
  · subst backspace
    exact pieces?_escape rfl rest
  · subst tab
    exact pieces?_escape rfl rest
  · subst feed
    exact pieces?_escape rfl rest
  · subst formFeed
    exact pieces?_escape rfl rest
  · subst carriage
    exact pieces?_escape rfl rest
  · have whole : Piece.ofUnit character.toNat = .whole character := by
      rw [ofUnit_of_lt control, Char.ofNat_toNat]
    rw [← whole]
    simp only [List.cons_append, List.nil_append, pieces?, unit?_digitChar _ control]
    cases pieces? rest <;> rfl
  · exact pieces?_plain quote backslash control rest

/-- Encoded characters are decoded up to the quote behind them. -/
theorem pieces?_encoded (characters rest : List Char) :
    pieces? (characters.flatMap Value.encodeCharacter ++ '"' :: rest) =
      some (characters.map .whole, rest) := by
  induction characters with
  | nil => rfl
  | cons character characters inductionHypothesis =>
      rw [List.flatMap_cons, List.append_assoc, pieces?_encodeCharacter, inductionHypothesis]
      rfl

/-- Whole characters are assembled as they are. -/
theorem assemble?_whole (characters : List Char) :
    assemble? (characters.map .whole) = some characters := by
  induction characters with
  | nil => rfl
  | cons character characters inductionHypothesis =>
      rw [List.map_cons, assemble?, inductionHypothesis]
      rfl

/-- A text is read back from between its quotes. -/
theorem scalar?_encodeText (value : String) (rest : List Char) :
    scalar? ((Value.encodeText value).toList ++ rest) = some (.text (some value), rest) := by
  simp only [Value.encodeText, String.toList_ofList, List.cons_append, List.append_assoc,
    List.nil_append, scalar?, text?, pieces?_encoded, assemble?_whole, Option.map_some,
    String.ofList_toList]

/-- A text does not go on with a digit or with another part of a number. -/
def EndsNumeral (rest : List Char) : Prop :=
  ∀ character ∈ rest.head?, character.isDigit = false ∧ character ≠ '.' ∧ character ≠ 'e' ∧
    character ≠ 'E'

/-- The digits of a number end where the number ends. -/
theorem digits_append {characters rest : List Char}
    (numeric : ∀ character ∈ characters, character.isDigit = true) (ends : EndsNumeral rest) :
    digits (characters ++ rest) = (characters.filterMap decimalDigit?, rest) := by
  induction characters with
  | nil =>
      cases rest with
      | nil => rfl
      | cons character rest =>
          have other := (ends character rfl).1
          simp [digits, decimalDigit?, other]
  | cons character characters inductionHypothesis =>
      have digit := numeric character List.mem_cons_self
      have others := inductionHypothesis fun other member =>
        numeric other (List.mem_cons_of_mem _ member)
      simp [digits, decimalDigit?, digit, others]

/-- A positive number has no leading zero. -/
theorem toDigits_front {value : Nat} (positive : 0 < value) :
    ∃ first rest, Nat.toDigits 10 value = first :: rest ∧ decimalDigit? first ≠ some 0 := by
  induction value using Nat.strongRecOn with
  | ind value inductionHypothesis =>
      by_cases small : value < 10
      · have single : ∀ digit < 10, 0 < digit → decimalDigit? digit.digitChar ≠ some 0 := by decide
        exact ⟨_, [], Nat.toDigits_of_lt_base small, single value small positive⟩
      · obtain ⟨first, rest, front, other⟩ :=
          inductionHypothesis (value / 10) (by omega) (by omega)
        refine ⟨first, rest ++ [Nat.digitChar (value % 10)], ?_, other⟩
        rw [Nat.toDigits_of_base_le (by decide) (by omega), front, List.cons_append]

/-- The numeral that the decimal digits of a number spell. -/
def numeralOf (value : Nat) : Numeral :=
  ⟨false, (Nat.toDigits 10 value).filterMap decimalDigit?, none, none⟩

/-- The decimal digits of a number are read as its whole part. -/
theorem whole?_toDigits (value : Nat) {rest : List Char} (ends : EndsNumeral rest) :
    whole? (Nat.toDigits 10 value ++ rest) = some ((numeralOf value).whole, rest) := by
  have numeric : ∀ character ∈ Nat.toDigits 10 value, character.isDigit = true := fun _ member =>
    Nat.isDigit_of_mem_toDigits (by decide) (by decide) member
  rw [whole?, digits_append numeric ends]
  rcases Nat.eq_zero_or_pos value with rfl | positive
  · rfl
  · obtain ⟨first, others, front, nonzero⟩ := toDigits_front positive
    have digit := numeric first (front ▸ List.mem_cons_self)
    have known : decimalDigit? first = some (first.toNat - '0'.toNat) := if_pos digit
    rw [numeralOf, front, List.filterMap_cons_some known]
    cases code : first.toNat - '0'.toNat with
    | zero => exact absurd (code ▸ known) nonzero
    | succ code => rfl

/-- Where a number ends, it has no fraction. -/
theorem fraction?_of_endsNumeral {rest : List Char} (ends : EndsNumeral rest) :
    Tree.fraction? rest = some (none, rest) := by
  cases rest with
  | nil => rfl
  | cons character rest =>
      rw [Tree.fraction?]
      intro others same
      cases same
      exact (ends '.' rfl).2.1 rfl

/-- Where a number ends, it has no exponent. -/
theorem exponent?_of_endsNumeral {rest : List Char} (ends : EndsNumeral rest) :
    Tree.exponent? rest = some (none, rest) := by
  cases rest with
  | nil => rfl
  | cons character rest =>
      obtain ⟨_, _, lower, upper⟩ := ends character rfl
      unfold Tree.exponent?
      exact if_neg (by simp [lower, upper])

/-- The text of a number begins with a digit. -/
theorem toString_front (value : Nat) :
    ∃ first rest, (toString value).toList = first :: rest ∧ first.isDigit = true := by
  have digits : (toString value).toList = Nat.toDigits 10 value := Nat.toList_repr
  rw [digits]
  cases front : Nat.toDigits 10 value with
  | nil => exact absurd front Nat.toDigits_ne_nil
  | cons first rest =>
      exact ⟨first, rest, rfl, Nat.isDigit_of_mem_toDigits (by decide) (by decide)
        (front ▸ List.mem_cons_self)⟩

/-- The text of a number is read as its numeral. -/
theorem numeral?_toString (value : Nat) {rest : List Char} (ends : EndsNumeral rest) :
    numeral? ((toString value).toList ++ rest) = some (numeralOf value, rest) := by
  have digits : (toString value).toList = Nat.toDigits 10 value := Nat.toList_repr
  have read := whole?_toDigits value ends
  obtain ⟨first, others, front, digit⟩ := toString_front value
  rw [← digits, front] at read
  rw [front, numeral?]
  · simp only [read, fraction?_of_endsNumeral ends, exponent?_of_endsNumeral ends,
      bind, Option.bind, pure, numeralOf]
  · intro _ same
    cases same
    cases digit

/-- A number is read back from its digits. -/
theorem scalar?_toString (value : Nat) {rest : List Char} (ends : EndsNumeral rest) :
    scalar? ((toString value).toList ++ rest) = some (.number (numeralOf value), rest) := by
  have read := numeral?_toString value ends
  obtain ⟨first, others, front, digit⟩ := toString_front value
  rw [front, List.cons_append] at read ⊢
  have begins {character : Char} {text : List Char}
      (same : first :: (others ++ rest) = character :: text) : character.isDigit = true := by
    cases same
    exact digit
  have noKeyword : keyword? (first :: (others ++ rest)) = none := by
    rw [keyword?]
    all_goals
      intro _ same
      cases begins same
  rw [scalar?, noKeyword, read]
  · rfl
  · intro _ same
    cases begins same

/-- The word for nothing is read as a scalar. -/
theorem scalar?_null (rest : List Char) :
    scalar? ("null".toList ++ rest) = some (.null, rest) := by
  simp [scalar?, keyword?]

/-- The words for truth values are read as scalars. -/
theorem scalar?_boolean (value : Bool) (rest : List Char) :
    scalar? ((Value.boolean value).scalar.toList ++ rest) = some (.boolean value, rest) := by
  cases value <;> simp [Value.scalar, scalar?, keyword?]

/-- A scalar begins neither with a space nor with a bracket. -/
def OpensScalar (character : Char) : Prop :=
  Tree.isSpace character = false ∧ character ∉ ['[', ']', '\x7b', '\x7d']

instance (character : Char) : Decidable (OpensScalar character) :=
  inferInstanceAs (Decidable (_ ∧ _))

/-- A digit opens a scalar. -/
theorem opensScalar_of_isDigit {character : Char} (digit : character.isDigit = true) :
    OpensScalar character := by
  have other {apart : Char} (letter : apart.isDigit = false) : character ≠ apart := by
    rintro rfl
    rw [digit] at letter
    cases letter
  simp [OpensScalar, Tree.isSpace, other]

/-- An encoded text begins with a quote. -/
theorem encodeText_front (text : String) : ∃ rest, (Value.encodeText text).toList = '"' :: rest :=
  ⟨_, by rw [Value.encodeText, String.toList_ofList]⟩

end PetriLogic.Json
