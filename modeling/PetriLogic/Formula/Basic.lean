/-
This file gives the formulas on places and on transitions.
-/

import PetriLogic.Predicate.Basic

namespace PetriLogic

/--
A formula is indexed by the kind of the nodes it is evaluated at.
The modal operators take operands for the nodes of the other kind.
-/
inductive Formula : NodeKind → Type where
  | truth {kind : NodeKind} : Formula kind
  | falsity {kind : NodeKind} : Formula kind
  | test {kind : NodeKind} (predicate : Predicate) : Formula kind
  | not {kind : NodeKind} (operand : Formula kind) : Formula kind
  | and {kind : NodeKind} (first second : Formula kind) : Formula kind
  | or {kind : NodeKind} (first second : Formula kind) : Formula kind
  | modal {kind : NodeKind} (next : Formula kind.other) : Formula kind
  | existsUntil {kind : NodeKind} (hold goal : Formula kind) : Formula kind
  | eventually {kind : NodeKind} (goal : Formula kind) : Formula kind
  | forallUntil {kind : NodeKind} (hold goal : Formula kind) : Formula kind
  | forallModal {kind : NodeKind} (later : Formula kind) (next : Formula kind.other) : Formula kind
  | existsModal {kind : NodeKind} (later : Formula kind) (next : Formula kind.other) : Formula kind
  | existsNext {kind : NodeKind} (later : Formula kind) : Formula kind
  | forallNext {kind : NodeKind} (later : Formula kind) : Formula kind
  | possibly {kind : NodeKind} (goal : Formula kind) : Formula kind
  | invariantly {kind : NodeKind} (hold : Formula kind) : Formula kind
  | along {kind : NodeKind} (hold : Formula kind) : Formula kind
deriving DecidableEq

namespace Formula

/-- A derived operator is expanded by one level and every other formula is left alone. -/
def expand : {kind : NodeKind} → Formula kind → Formula kind
  | .place, .existsNext later => .modal (.modal later)
  | _, .forallNext later => .not (.existsNext (.not later))
  | _, .possibly goal => .existsUntil .truth goal
  | _, .invariantly hold => .not (.possibly (.not hold))
  | _, .along hold => .not (.eventually (.not hold))
  | _, formula => formula

def isDerived : {kind : NodeKind} → Formula kind → Bool
  | .place, .existsNext _ => true
  | _, .forallNext _ => true
  | _, .possibly _ => true
  | _, .invariantly _ => true
  | _, .along _ => true
  | _, _ => false

end Formula

/-- A property is a formula together with the kind of its nodes. -/
structure Property where
  kind : NodeKind
  formula : Formula kind
deriving DecidableEq

end PetriLogic
