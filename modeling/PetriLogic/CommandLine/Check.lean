/-
This file carries out what the command line asks for.
-/

import PetriLogic.CommandLine.Folder
import PetriLogic.CommandLine.Options
import PetriLogic.Net.Dot
import PetriLogic.Net.Json
import PetriLogic.Verification.Json

namespace PetriLogic.CommandLine

inductive Complaint where
  | usage
  | failure (message : String)
deriving DecidableEq

structure Outcome where
  status : UInt32
  output : String
  complaint : Option Complaint
deriving DecidableEq

def usage : String :=
  "usage: pn-check --net FILE --start ID [--formula TEXT]... [--formulas FILE]\n" ++
  "  [--config FILE] [--max-paths COUNT] [--scope all|start] [--dot] [--json]\n"

def versionLine : String := "pn-check 0.1.0\n"

/-- The options take precedence over the settings. -/
def override (options : Options) (config : Config) : Config :=
  { config with
    maxPaths := options.maxPaths.or config.maxPaths
    scope := options.scope.getD config.scope }

def printReport (options : Options) (report : Report) : Outcome where
  status := if report.allHold then 0 else 1
  output :=
    if options.json then report.toJson.pretty "" ++ "\n"
    else String.join (report.verdicts.map fun verdict => verdict.display ++ "\n")
  complaint := none

section Reading

variable {Effect : Type → Type} [Monad Effect]
  (readFile : String → ExceptT FileFault Effect String)

def readAs (purpose path : String) : ExceptT String Effect String :=
  (readFile path).adapt fun fault =>
    "reading " ++ purpose ++ " " ++ path ++ ": " ++ fault.message

def readConfig : Option String → ExceptT String Effect Config
  | none => pure .standard
  | some path => do
      let content ← readAs readFile "config" path
      match Config.ofJson content with
      | .ok config => pure config
      | .error problem => throw ("parsing config " ++ path ++ ": " ++ problem.message)

def readNet (path : String) : ExceptT String Effect Net := do
  let content ← readAs readFile "net" path
  match Net.ofJson content with
  | .ok net => pure net
  | .error fault => throw ("loading net " ++ path ++ ": " ++ fault.message)

def readEntries : Option String → ExceptT String Effect (List FormulaFile.Entry)
  | none => pure []
  | some path => FormulaFile.entries <$> readAs readFile "formulas" path

def check (runId : String) (options : Options) : ExceptT String Effect Outcome := do
  let config ← readConfig readFile options.config
  let net ← readNet readFile options.net
  if options.dot then pure ⟨0, net.toDot, none⟩
  else do
    let given := options.formulas.map fun formula => ⟨formula, formula⟩
    let entries := given ++ (← readEntries readFile options.formulaFile)
    if entries.isEmpty then throw "nothing to check, pass --formula or --formulas"
    else
      match Report.run runId (override options config) net options.start entries with
      | .ok report => pure (printReport options report)
      | .error fault => throw fault.message

def run (runId : String) (arguments : List String) : Effect Outcome := do
  match Request.ofArguments arguments with
  | none => pure ⟨2, "", some .usage⟩
  | some .help => pure ⟨0, usage, none⟩
  | some .version => pure ⟨0, versionLine, none⟩
  | some (.check options) =>
      match ← (check readFile runId options).run with
      | .ok outcome => pure outcome
      | .error message => pure ⟨2, "", some (.failure message)⟩

end Reading

end PetriLogic.CommandLine
