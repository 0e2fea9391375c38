/-
This file checks properties at one start node over one set of paths.
-/

import PetriLogic.Formula.Extent
import PetriLogic.Formula.Reading
import PetriLogic.Path.Enumeration

namespace PetriLogic

/-- A property with the name that it is reported under. -/
structure NamedProperty where
  name : String
  property : Property
deriving DecidableEq

/-- A verdict shows the text of a formula and whether it holds. -/
structure Verdict where
  name : String
  formula : String
  holds : Bool
deriving DecidableEq

/-- A formula that does not hold is marked as violated. -/
def Verdict.display (verdict : Verdict) : String :=
  verdict.name ++ ": " ++ verdict.formula ++ " " ++
    (if verdict.holds then "holds" else "VIOLATED")

/-- A verifier checks properties at its start over its paths. -/
structure Verifier where
  start : Handle
  paths : PathSet

namespace Verifier

/-- An unknown start is reported before too many paths. -/
def ofNet (net : Net) (start : String) (enumeration : Enumeration) : Except Fault Verifier := do
  let handle ← net.lookup start
  let paths ← net.pathSet enumeration handle
  pure ⟨handle, paths⟩

/-- A start outside the net counts as a place. -/
def kind (verifier : Verifier) : NodeKind :=
  (verifier.paths.net.kind? verifier.start).getD .place

/-- Formulas are read for the kind of the start. -/
def read (verifier : Verifier) (source : String) : Except Fault Property :=
  Property.read verifier.kind source

/-- Whether a property holds at the start. -/
def check (verifier : Verifier) (property : Property) : Bool :=
  (property.extent verifier.paths).contains verifier.start

/-- The verdict of a verifier is the value of the property at its start. -/
theorem checkIffHolds (verifier : Verifier) (property : Property) :
    verifier.check property = property.holds verifier.paths verifier.start := by
  rw [check, Property.extentContains]

/-- The verdict on one property. -/
def verdict (verifier : Verifier) (named : NamedProperty) : Verdict :=
  ⟨named.name, named.property.display, verifier.check named.property⟩

/-- The verdicts on all properties in their order. -/
def checkAll (verifier : Verifier) (named : List NamedProperty) : List Verdict :=
  named.map verifier.verdict

end Verifier

end PetriLogic
