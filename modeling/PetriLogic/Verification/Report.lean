/-
This file names runs, runs a verification and reports its verdicts.
-/

import PetriLogic.Json.Tree
import PetriLogic.Verification.Config
import PetriLogic.Verification.FormulaFile
import PetriLogic.Verification.Verifier

namespace PetriLogic

namespace RunId

/-- The groups hold this many hexadecimal digits. -/
def groupSizes : List Nat := [8, 4, 4, 4, 12]

/-- Groups of hexadecimal digits have hyphens between them. -/
def isValid (text : String) : Bool :=
  let groups := text.splitOn "-"
  groups.map String.length = groupSizes &&
    groups.all fun group => group.toList.all fun digit => (Json.Tree.hexDigit? digit).isSome

/-- The digits from a position on, of which the lowest comes last. -/
def digits (number position count : Nat) : List Char :=
  (List.range count).reverse.map fun offset =>
    Nat.digitChar (number >>> (4 * (position + offset)) % 16)

/-- The numbers below this one have as many digits as all groups together. -/
def limit : Nat := 1 <<< 128

/-- The third group starts with the version, and the fourth one with the variant. -/
def ofNumber (number : Nat) : String :=
  let time := digits number 0 8
  let middle := digits number 8 4
  let version := '4' :: digits number 12 3
  let variant := Nat.digitChar (8 + number >>> 60 % 4) :: digits number 16 3
  let node := digits number 19 12
  String.ofList (time ++ '-' :: middle ++ '-' :: version ++ '-' :: variant ++ '-' :: node)

end RunId

/-- A report names the run, the net and the start, and it lists the verdicts. -/
structure Report where
  runId : String
  net : String
  start : String
  paths : Nat
  verdicts : List Verdict
deriving DecidableEq

/-- A run fails as a whole. -/
inductive RunFault where
  | preparing (start : String) (fault : Fault)
  | formula (name : String) (fault : Fault)
deriving DecidableEq

/-- The message names what was prepared or read when the fault came up. -/
def RunFault.message : RunFault → String
  | .preparing start fault => "preparing paths from " ++ start ++ ": " ++ fault.message
  | .formula name fault => "formula " ++ Json.ticked name ++ ": " ++ fault.message

namespace Report

/-- Whether no verdict is negative. -/
def allHold (report : Report) : Bool := report.verdicts.all (·.holds)

/-- A fault in a formula is reported with the name of its entry. -/
def readEntry (verifier : Verifier) (entry : FormulaFile.Entry) :
    Except RunFault NamedProperty := do
  let property ← (verifier.read entry.formula).mapError (.formula entry.name)
  pure ⟨entry.name, property⟩

/-- Every formula is read before the first one is checked. -/
def run (runId : String) (config : Config) (net : Net) (start : String)
    (entries : List FormulaFile.Entry) : Except RunFault Report := do
  let verifier ← (Verifier.ofNet net start config.enumeration).mapError (.preparing start)
  let named ← entries.mapM (readEntry verifier)
  pure ⟨runId, net.id, start, verifier.paths.paths.length, verifier.checkAll named⟩

end Report

end PetriLogic
