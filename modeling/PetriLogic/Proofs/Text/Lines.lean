import PetriLogic.Text.Basic
import Mathlib.Data.List.TakeWhile

namespace PetriLogic.Text

/-- A character that is no line feed joins the first line. -/
theorem splitLines_cons {first : Char} {rest line : List Char} {lines : List (List Char)}
    (apart : '\n' ≠ first) (later : splitLines rest = line :: lines) :
    splitLines (first :: rest) = (first :: line) :: lines := by
  rw [splitLines, later]
  exact fun same => apart same.symm

/-- A text without a line feed is a single line. -/
theorem splitLines_of_notMem {line : List Char} (single : '\n' ∉ line) :
    splitLines line = [line] := by
  induction line with
  | nil => rfl
  | cons first line inductionHypothesis =>
      obtain ⟨apart, later⟩ := List.ne_and_not_mem_of_not_mem_cons single
      exact splitLines_cons apart (inductionHypothesis later)

/-- The first line ends at the first line feed. -/
theorem splitLines_append {line : List Char} (single : '\n' ∉ line) (rest : List Char) :
    splitLines (line ++ '\n' :: rest) = line :: splitLines rest := by
  induction line with
  | nil => rfl
  | cons first line inductionHypothesis =>
      obtain ⟨apart, later⟩ := List.ne_and_not_mem_of_not_mem_cons single
      exact splitLines_cons apart (inductionHypothesis later)

/-- A text of nothing but white space. -/
def Blank (text : List Char) : Prop := ∀ character ∈ text, isBlank character = true

instance (text : List Char) : Decidable (Blank text) :=
  decidable_of_iff (text.all isBlank = true) List.all_eq_true

/-- Two blank texts make a blank text. -/
theorem Blank.append {first second : List Char} (blank : Blank first) (later : Blank second) :
    Blank (first ++ second) :=
  List.forall_mem_append.2 ⟨blank, later⟩

section

variable {before after text : List Char}

/-- White space at the end is trimmed. -/
theorem trimEnd_append (blank : Blank after) :
    trimEnd (text ++ after) = trimEnd text := by
  have reversed : Blank after.reverse := fun character isIn =>
    blank character (List.mem_reverse.1 isIn)
  rw [trimEnd, List.reverse_append, List.dropWhile_append_of_pos reversed, trimEnd]

/-- White space around a text does not change what is left of it. -/
theorem trim_append (blankBefore : Blank before) (blankAfter : Blank after) :
    trim (before ++ (text ++ after)) = trim text := by
  rw [trim, List.dropWhile_append_of_pos blankBefore, List.dropWhile_append]
  split
  · rename_i isNil
    rw [List.dropWhile_eq_nil_iff.2 blankAfter, trim, List.isEmpty_iff.1 isNil]
  · rw [trimEnd_append blankAfter, trim]

/-- Nothing is left of a blank text. -/
theorem trim_of_blank (blank : Blank text) : trim text = [] := by
  rw [trim, List.dropWhile_eq_nil_iff.2 blank]
  rfl

/-- Trimming the end keeps a solid character at the front. -/
theorem trimEnd_cons {first : Char} (solid : isBlank first = false) :
    trimEnd (first :: text) = first :: trimEnd text := by
  rw [trimEnd, List.reverse_cons, List.dropWhile_append, trimEnd]
  split
  · rename_i isNil
    rw [List.dropWhile_cons_of_neg (by simp [solid]), List.isEmpty_iff.1 isNil]
    rfl
  · rw [List.reverse_append]
    rfl

/-- Dropping white space keeps every other character. -/
theorem mem_dropWhile {mark : Char} (isIn : mark ∈ text) (solid : isBlank mark = false) :
    mark ∈ text.dropWhile isBlank := by
  rw [← List.takeWhile_append_dropWhile (p := isBlank) (l := text)] at isIn
  rcases List.mem_append.1 isIn with dropped | kept
  · have blank := List.mem_takeWhile_imp dropped
    rw [solid] at blank
    cases blank
  · exact kept

/-- Trimming keeps every other character. -/
theorem mem_trim {mark : Char} (isIn : mark ∈ text) (solid : isBlank mark = false) :
    mark ∈ trim text :=
  List.mem_reverse.2 (mem_dropWhile (List.mem_reverse.2 (mem_dropWhile isIn solid)) solid)

/-- No white space stands at either end. -/
structure Bare (text : List Char) : Prop where
  first : ∀ character ∈ text.head?, isBlank character = false
  last : ∀ character ∈ text.getLast?, isBlank character = false

/-- Nothing is dropped in front of a solid character. -/
theorem dropWhile_eq_self (first : ∀ character ∈ text.head?, isBlank character = false) :
    text.dropWhile isBlank = text := by
  cases text with
  | nil => rfl
  | cons character text => rw [List.dropWhile_cons_of_neg (by simp [first character rfl])]

/-- A bare text has nothing to trim. -/
theorem Bare.trim_eq (bare : Bare text) : trim text = text := by
  have last : ∀ character ∈ text.reverse.head?, isBlank character = false := by
    rw [List.head?_reverse]
    exact bare.last
  rw [trim, dropWhile_eq_self bare.first, trimEnd, dropWhile_eq_self last, List.reverse_reverse]

/-- A text without white space is bare. -/
theorem bare_of_forall (solid : ∀ character ∈ text, isBlank character = false) : Bare text where
  first := fun character isFirst => solid character (List.mem_of_mem_head? isFirst)
  last := fun character isLast => solid character (List.mem_of_mem_getLast? isLast)

/-- Whatever stands between two texts without white space at their ends. -/
theorem Bare.append {behind : List Char} (bare : Bare before) (bareBehind : Bare behind)
    (someBefore : before ≠ []) (someBehind : behind ≠ []) :
    Bare (before ++ (text ++ behind)) where
  first := by
    rw [List.head?_append, Option.or_of_isSome (by simpa using someBefore)]
    exact bare.first
  last := by
    rw [← List.append_assoc, List.getLast?_append, Option.or_of_isSome (by simpa using someBehind)]
    exact bareBehind.last

end

end PetriLogic.Text
