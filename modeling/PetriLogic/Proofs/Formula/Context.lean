import PetriLogic.Formula.Evaluation

namespace PetriLogic.Formula

/-- A context is a formula with one hole, which takes formulas on the inner kind of nodes. -/
inductive Context (inner : NodeKind) : NodeKind → Type where
  | hole : Context inner inner
  | not {kind : NodeKind} (operand : Context inner kind) : Context inner kind
  | andFirst {kind : NodeKind} (first : Context inner kind) (second : Formula kind) :
      Context inner kind
  | andSecond {kind : NodeKind} (first : Formula kind) (second : Context inner kind) :
      Context inner kind
  | orFirst {kind : NodeKind} (first : Context inner kind) (second : Formula kind) :
      Context inner kind
  | orSecond {kind : NodeKind} (first : Formula kind) (second : Context inner kind) :
      Context inner kind
  | modal {kind : NodeKind} (next : Context inner kind.other) : Context inner kind
  | existsUntilHold {kind : NodeKind} (hold : Context inner kind) (goal : Formula kind) :
      Context inner kind
  | existsUntilGoal {kind : NodeKind} (hold : Formula kind) (goal : Context inner kind) :
      Context inner kind
  | eventually {kind : NodeKind} (goal : Context inner kind) : Context inner kind
  | forallUntilHold {kind : NodeKind} (hold : Context inner kind) (goal : Formula kind) :
      Context inner kind
  | forallUntilGoal {kind : NodeKind} (hold : Formula kind) (goal : Context inner kind) :
      Context inner kind
  | forallModalLater {kind : NodeKind} (later : Context inner kind) (next : Formula kind.other) :
      Context inner kind
  | forallModalNext {kind : NodeKind} (later : Formula kind) (next : Context inner kind.other) :
      Context inner kind
  | existsModalLater {kind : NodeKind} (later : Context inner kind) (next : Formula kind.other) :
      Context inner kind
  | existsModalNext {kind : NodeKind} (later : Formula kind) (next : Context inner kind.other) :
      Context inner kind
  | existsNext {kind : NodeKind} (later : Context inner kind) : Context inner kind
  | forallNext {kind : NodeKind} (later : Context inner kind) : Context inner kind
  | possibly {kind : NodeKind} (goal : Context inner kind) : Context inner kind
  | invariantly {kind : NodeKind} (hold : Context inner kind) : Context inner kind
  | along {kind : NodeKind} (hold : Context inner kind) : Context inner kind

namespace Context

variable {inner kind : NodeKind}

/-- The hole is filled with a formula. -/
def plug {kind : NodeKind} (context : Context inner kind) (part : Formula inner) : Formula kind :=
  match context with
  | .hole => part
  | .not operand => .not (operand.plug part)
  | .andFirst first second => .and (first.plug part) second
  | .andSecond first second => .and first (second.plug part)
  | .orFirst first second => .or (first.plug part) second
  | .orSecond first second => .or first (second.plug part)
  | .modal next => .modal (next.plug part)
  | .existsUntilHold hold goal => .existsUntil (hold.plug part) goal
  | .existsUntilGoal hold goal => .existsUntil hold (goal.plug part)
  | .eventually goal => .eventually (goal.plug part)
  | .forallUntilHold hold goal => .forallUntil (hold.plug part) goal
  | .forallUntilGoal hold goal => .forallUntil hold (goal.plug part)
  | .forallModalLater later next => .forallModal (later.plug part) next
  | .forallModalNext later next => .forallModal later (next.plug part)
  | .existsModalLater later next => .existsModal (later.plug part) next
  | .existsModalNext later next => .existsModal later (next.plug part)
  | .existsNext later => .existsNext (later.plug part)
  | .forallNext later => .forallNext (later.plug part)
  | .possibly goal => .possibly (goal.plug part)
  | .invariantly hold => .invariantly (hold.plug part)
  | .along hold => .along (hold.plug part)

/-- The value of a formula depends on a part only through the values of the part. -/
theorem holds_plug_congr {set : PathSet} {first second : Formula inner}
    (same : first.holds set = second.holds set) (context : Context inner kind) :
    (context.plug first).holds set = (context.plug second).holds set := by
  induction context <;> funext handle <;> simp only [plug, holds, *]

end Context

end PetriLogic.Formula
