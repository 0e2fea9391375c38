/-
This file gives the text that a rule has not read yet.
Its length comes with it, so that the places in a text can be compared.
-/

namespace PetriLogic.Grammar

structure Unread where
  characters : List Char
  left : Nat
  measured : left = characters.length

namespace Unread

def ofList (characters : List Char) : Unread := ⟨characters, characters.length, rfl⟩

/-- Unread text is determined by its characters. -/
theorem eqOfList (text : Unread) : text = ofList text.characters := by
  obtain ⟨characters, left, rfl⟩ := text
  rfl

def first? (text : Unread) : Option (Char × Unread) :=
  match text with
  | ⟨[], _, _⟩ => none
  | ⟨first :: rest, left, measured⟩ => some (first, ⟨rest, left - 1, by simp [measured]⟩)

/-- The first unread character is split off the rest. -/
theorem firstOfCons (first : Char) (rest : List Char) :
    (ofList (first :: rest)).first? = some (first, ofList rest) := rfl

/-- The characters at the front that are admitted are left out. -/
def skip (admits : Char → Bool) (text : Unread) : Unread where
  characters := text.characters.dropWhile admits
  left := text.left - (text.characters.takeWhile admits).length
  measured := by
    have whole := congrArg List.length
      (List.takeWhile_append_dropWhile (p := admits) (l := text.characters))
    rw [List.length_append] at whole
    rw [text.measured]
    omega

end Unread

/-- The text that remains after a given beginning. -/
def after? : List Char → List Char → Option (List Char)
  | [], text => some text
  | _ :: _, [] => none
  | expected :: word, found :: text => if expected = found then after? word text else none

/-- A word that is found stands in front of the rest. -/
theorem splitAfter {word text rest : List Char} (found : after? word text = some rest) :
    text = word ++ rest := by
  induction word generalizing text with
  | nil => exact Option.some.inj found
  | cons expected word inductionHypothesis =>
      cases text with
      | nil => cases found
      | cons first text =>
          simp only [after?] at found
          split at found
          · rename_i same
            rw [same, List.cons_append, ← inductionHypothesis found]
          · cases found

/-- A word in front of the rest is found. -/
theorem afterAppend (word rest : List Char) : after? word (word ++ rest) = some rest := by
  induction word with
  | nil => rfl
  | cons _ _ inductionHypothesis => simpa [after?] using inductionHypothesis

namespace Unread

def afterWord? (word : List Char) (text : Unread) : Option Unread :=
  match found : after? word text.characters with
  | none => none
  | some rest => some ⟨rest, text.left - word.length, by
      rw [text.measured, splitAfter found, List.length_append]
      omega⟩

/-- A word in front of unread text is taken off it. -/
theorem afterWordOfAppend (word rest : List Char) :
    (ofList (word ++ rest)).afterWord? word = some (ofList rest) := by
  unfold afterWord?
  split
  · rename_i missed
    simp [ofList, afterAppend] at missed
  · rename_i other found
    obtain rfl : rest = other := by simpa [ofList, afterAppend] using found
    simp [ofList]

/-- The characters that were read on the way to a later place. -/
def upTo (text later : Unread) : List Char := text.characters.take (text.left - later.left)

end Unread

end PetriLogic.Grammar
