import PetriLogic.Proofs.Formula.Canonical
import Mathlib.Data.List.TakeWhile

namespace PetriLogic.Formula

open Grammar Rule

/-- A bracket at the end is the last one, since only spaces may follow it. -/
theorem eq_of_closed {inside read behind : List Char} (blank : skip behind = [])
    (same : inside ++ [')'] = read ++ ')' :: behind) : inside = read ∧ behind = [] := by
  rcases List.eq_nil_or_concat behind with rfl | ⟨others, last, rfl⟩
  · exact ⟨List.append_cancel_right same, rfl⟩
  · have isLast : ')' = last := by
      have ends : inside ++ [')'] = (read ++ ')' :: others) ++ [last] := by simpa using same
      exact List.singleton_inj.1 (List.append_inj' ends rfl).2
    have space := List.dropWhile_eq_nil_iff.1 blank last (by simp)
    rw [← isLast] at space
    cases space

/-- A test is read when the text before its last bracket is a predicate. -/
theorem result_ofTest_iff {kind : NodeKind} {text rest : List Char} {formula : Formula kind} :
    (ofTest : Rule (Formula kind)).result ('(' :: text) = some (formula, rest) ↔
      ∃ read tested, text = read ++ ')' :: rest ∧
        Predicate.read (String.ofList read) = .ok tested ∧ formula = .test tested := by
  have opened : (ofTest : Rule (Formula kind)).result ('(' :: text) =
      (do let tested ← predicate; word ")"; pure (.test tested) :
        Rule (Formula kind)).result text := rfl
  rw [opened, result_bind_iff]
  constructor
  · rintro ⟨tested, behind, reads, closes⟩
    obtain ⟨_, last, closed, same⟩ := result_bind_iff.1 closes
    cases same
    rw [result_word_iff.1 closed] at reads
    obtain ⟨read, whole, accepted⟩ := result_predicate_iff.1 reads
    exact ⟨read, tested, whole, accepted, rfl⟩
  · rintro ⟨read, tested, rfl, accepted, rfl⟩
    refine ⟨tested, ')' :: rest, result_predicate_iff.2 ⟨read, rfl, accepted⟩, ?_⟩
    exact result_bind_iff.2 ⟨(), rest, result_word_iff.2 rfl, rfl⟩

/-- The symbols of tests do not begin with a space. -/
theorem solid_testSymbol (kind : NodeKind) : Solid kind.testSymbol := by
  cases kind <;> decide

/-- The text of a test on the nodes of a kind, whatever stands between its brackets. -/
def testText (kind : NodeKind) (source : String) : String :=
  kind.testSymbol ++ "(" ++ source ++ ")"

/-- The text of a test is its symbol and the source between brackets. -/
theorem testText_toList (kind : NodeKind) (source : String) :
    (testText kind source).toList =
      kind.testSymbol.toList ++ '(' :: (source.toList ++ [')']) := by
  simp [testText]

/-- No operator of one kind has a name that begins like the test of the other kind. -/
theorem testSymbol_apart (depth : Nat) (kind : NodeKind) :
    ∀ name ∈ (operators depth kind.other).flatMap Prod.fst, Apart name kind.testSymbol := by
  cases kind <;> exact of_decide_eq_true rfl

/-- A test on the nodes of a kind is no formula on the others. -/
theorem result_otherKind (kind : NodeKind) (depth : Nat) (text : List Char) :
    (spaced depth kind.other).result (kind.testSymbol.toList ++ text) = none := by
  cases depth with
  | zero => rfl
  | succ depth =>
      have missed : (operator (spaced depth) kind.other).result
          (kind.testSymbol.toList ++ text) = none := by
        rw [operator_eq_choice]
        apply result_choice_eq_none
        rw [List.forall_mem_map]
        exact fun entry member => result_named_eq_none (fun name isName =>
          testSymbol_apart depth kind name (List.mem_flatMap.2 ⟨entry, member, isName⟩)) _ _
      simp only [spaced, result_bind, result_spaces, Option.bind_some,
        (solid_testSymbol kind).skip_append, missed, Option.bind_none]

/-- The text of a test is accepted exactly when the predicate between its brackets is. -/
theorem read_test_iff {kind : NodeKind} {source : String} {formula : Formula kind} :
    Formula.read kind (testText kind source) = .ok formula ↔
      ∃ tested, Predicate.read source = .ok tested ∧ formula = .test tested := by
  have entry (depth : Nat) : ([kind.testSymbol], ofTest) ∈ operators depth kind := by
    simp [operators]
  rw [read_ok_iff, testText_toList]
  rw [result_spaced_named (entry _) List.mem_cons_self ((solid_testSymbol kind).skip_append _)]
  rw [Option.map_eq_some_iff]
  constructor
  · rintro ⟨⟨found, behind⟩, reads, same⟩
    obtain ⟨rfl, blank⟩ := Prod.mk.inj same
    obtain ⟨read, tested, whole, accepted, rfl⟩ := result_ofTest_iff.1 reads
    obtain ⟨rfl, _⟩ := eq_of_closed blank whole
    rw [String.ofList_toList] at accepted
    exact ⟨tested, accepted, rfl⟩
  · rintro ⟨tested, accepted, rfl⟩
    rw [← String.ofList_toList (s := source)] at accepted
    exact ⟨(.test tested, []), result_ofTest_iff.2 ⟨_, tested, rfl, accepted, rfl⟩, rfl⟩

/--
A test is read as a given predicate exactly when the text between its brackets is, and never as
anything else. The nodes of the other kind have no such test.
-/
theorem test_exact (kind : NodeKind) (source : String) :
    (∀ predicate : Predicate,
      Formula.read kind (testText kind source) = .ok (.test predicate) ↔
        Predicate.read source = .ok predicate) ∧
    (∀ formula : Formula kind, Formula.read kind (testText kind source) = .ok formula →
      ∃ predicate, Predicate.read source = .ok predicate ∧ formula = .test predicate) ∧
    ∀ formula : Formula kind.other,
      Formula.read kind.other (testText kind source) ≠ .ok formula := by
  refine ⟨fun predicate => ?_, fun formula => read_test_iff.1, fun formula read => ?_⟩
  · rw [read_test_iff]
    constructor
    · rintro ⟨tested, accepted, same⟩
      cases same
      exact accepted
    · intro accepted
      exact ⟨predicate, accepted, rfl⟩
  · rw [read_ok_iff, testText_toList, result_otherKind] at read
    cases read

/-- A closing bracket and a quote in a label end neither the label nor the test. -/
theorem quotedBracket_read :
    Formula.read .place "NF( !tag(\")\\\"\") )" = .ok (.test (.not (.tag ")\""))) ∧
    ∀ formula : Formula .transition,
      Formula.read .transition "NF( !tag(\")\\\"\") )" ≠ .ok formula := by
  have accepted : Predicate.read " !tag(\")\\\"\") " = .ok (.not (.tag ")\"")) :=
    Predicate.read_ok_iff.2 (by decide +kernel)
  obtain ⟨exact, _, otherwise⟩ := test_exact .place " !tag(\")\\\"\") "
  have text : testText .place " !tag(\")\\\"\") " = "NF( !tag(\")\\\"\") )" := by decide +kernel
  rw [text] at exact otherwise
  exact ⟨(exact _).2 accepted, otherwise⟩

end PetriLogic.Formula
