import PetriLogic.Predicate.Display
import PetriLogic.Predicate.Evaluation

namespace PetriLogic.Predicate

/-- An empty group is its neutral constant, and a group of one is its member. -/
def collect (neutral : Predicate) (gather : List Predicate → Predicate) :
    List Predicate → Predicate
  | [] => neutral
  | [operand] => operand
  | operands => gather operands

mutual

/-- Only groups of two or more are left. -/
def normal : Predicate → Predicate
  | .all operands => collect .truth .all (normalEach operands)
  | .any operands => collect .falsity .any (normalEach operands)
  | .not operand => .not (normal operand)
  | predicate => predicate

def normalEach : List Predicate → List Predicate
  | [] => []
  | operand :: operands => normal operand :: normalEach operands

end

mutual

/-- Every group has at least two members. -/
def isGrouped : Predicate → Bool
  | .all operands | .any operands => decide (2 ≤ operands.length) && areGrouped operands
  | .not operand => isGrouped operand
  | _ => true

def areGrouped : List Predicate → Bool
  | [] => true
  | operand :: operands => isGrouped operand && areGrouped operands

end

mutual

/-- A grouped predicate is its own normal form. -/
theorem normal_of_isGrouped {predicate : Predicate} (grouped : predicate.isGrouped = true) :
    predicate.normal = predicate := by
  match predicate with
  | .all operands | .any operands =>
      obtain ⟨several, each⟩ := Bool.and_eq_true_iff.1 grouped
      rw [normal, normalEach_of_areGrouped each]
      match operands with
      | [] | [_] => simp at several
      | _ :: _ :: _ => rfl
  | .not operand => exact congrArg Predicate.not (normal_of_isGrouped grouped)
  | .truth | .falsity | .id _ | .tag _ | .reads _ | .writes _ | .erases _ | .kind _
  | .terminal | .initial => rfl

/-- Grouped operands are their own normal forms. -/
theorem normalEach_of_areGrouped {operands : List Predicate}
    (grouped : areGrouped operands = true) : normalEach operands = operands := by
  match operands with
  | [] => rfl
  | operand :: operands =>
      obtain ⟨first, later⟩ := Bool.and_eq_true_iff.1 grouped
      rw [normalEach, normal_of_isGrouped first, normalEach_of_areGrouped later]

end

section

variable (net : Net) (handle : Handle)

/-- A group of all holds at the nodes of the net where each operand holds. -/
theorem holds_all (operands : List Predicate) : (all operands).holds net handle =
    ((net.get? handle).isSome && allHold net handle operands) := by
  rw [holds.eq_def]
  cases net.get? handle <;> rfl

/-- A group of any holds at the nodes of the net where some operand holds. -/
theorem holds_any (operands : List Predicate) : (any operands).holds net handle =
    ((net.get? handle).isSome && anyHolds net handle operands) := by
  rw [holds.eq_def]
  cases net.get? handle <;> rfl

/-- A negation holds at the nodes of the net where its operand does not. -/
theorem holds_not (operand : Predicate) : (not operand).holds net handle =
    ((net.get? handle).isSome && !operand.holds net handle) := by
  rw [holds.eq_def]
  cases net.get? handle <;> rfl

/-- A predicate holds at nodes of the net only. -/
theorem isSome_and_holds (predicate : Predicate) :
    ((net.get? handle).isSome && predicate.holds net handle) = predicate.holds net handle := by
  rw [holds.eq_def]
  cases net.get? handle <;> rfl

/-- Leaving out the brackets of a small group changes no answer. -/
theorem holds_collect_all (operands : List Predicate) :
    (collect .truth .all operands).holds net handle = (all operands).holds net handle := by
  match operands with
  | [] =>
      rw [holds_all, collect, holds.eq_def]
      cases net.get? handle <;> rfl
  | [operand] => rw [holds_all, allHold, allHold, Bool.and_true, isSome_and_holds, collect]
  | _ :: _ :: _ => rfl

/-- Collecting operands under any keeps the value of their group. -/
theorem holds_collect_any (operands : List Predicate) :
    (collect .falsity .any operands).holds net handle = (any operands).holds net handle := by
  match operands with
  | [] =>
      rw [holds_any, collect, holds.eq_def]
      cases net.get? handle <;> rfl
  | [operand] => rw [holds_any, anyHolds, anyHolds, Bool.or_false, isSome_and_holds, collect]
  | _ :: _ :: _ => rfl

mutual

/-- The normal form holds at the same nodes. -/
theorem holds_normal (predicate : Predicate) :
    predicate.normal.holds net handle = predicate.holds net handle := by
  match predicate with
  | .all operands => rw [normal, holds_collect_all, holds_all, holds_all, allHold_normalEach]
  | .any operands => rw [normal, holds_collect_any, holds_any, holds_any, anyHolds_normalEach]
  | .not operand => rw [normal, holds_not, holds_not, holds_normal]
  | .truth | .falsity | .id _ | .tag _ | .reads _ | .writes _ | .erases _ | .kind _
  | .terminal | .initial => rfl

/-- Normal forms all hold where the operands do. -/
theorem allHold_normalEach (operands : List Predicate) :
    allHold net handle (normalEach operands) = allHold net handle operands := by
  match operands with
  | [] => rfl
  | operand :: operands =>
      rw [normalEach, allHold, allHold, holds_normal, allHold_normalEach]

/-- Some normal form holds where some operand does. -/
theorem anyHolds_normalEach (operands : List Predicate) :
    anyHolds net handle (normalEach operands) = anyHolds net handle operands := by
  match operands with
  | [] => rfl
  | operand :: operands =>
      rw [normalEach, anyHolds, anyHolds, holds_normal, anyHolds_normalEach]

end

end

/-- Collecting operands under all keeps the text of their group. -/
theorem display_collect_all (operands : List Predicate) :
    (collect .truth .all operands).display = (all operands).display := by
  match operands with
  | [] | [_] | _ :: _ :: _ => rfl

/-- Collecting operands under any keeps the text of their group. -/
theorem display_collect_any (operands : List Predicate) :
    (collect .falsity .any operands).display = (any operands).display := by
  match operands with
  | [] | [_] | _ :: _ :: _ => rfl

mutual

/-- The normal form is written like the predicate. -/
theorem display_normal (predicate : Predicate) : predicate.normal.display = predicate.display := by
  match predicate with
  | .all operands => rw [normal, display_collect_all, display, display, displayEach_normalEach]
  | .any operands => rw [normal, display_collect_any, display, display, displayEach_normalEach]
  | .not operand => rw [normal, display, display, display_normal]
  | .truth | .falsity | .id _ | .tag _ | .reads _ | .writes _ | .erases _ | .kind _
  | .terminal | .initial => rfl

/-- Normal forms are displayed like the operands. -/
theorem displayEach_normalEach (operands : List Predicate) :
    displayEach (normalEach operands) = displayEach operands := by
  match operands with
  | [] => rfl
  | operand :: operands =>
      rw [normalEach, displayEach, displayEach, display_normal, displayEach_normalEach]

end

end PetriLogic.Predicate
