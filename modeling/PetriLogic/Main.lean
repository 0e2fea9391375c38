/-
This file connects the command line to the files and streams of the system.
-/

import PetriLogic.CommandLine.Check

namespace PetriLogic.CommandLine

/-- Some calls of the system negate the number of a fault. -/
def faultNumber (code : UInt32) : UInt32 := if code < 0x80000000 then code else 0 - code

def faultOf (problem : IO.Error) : FileFault :=
  match problem with
  | .noFileOrDirectory _ _ _ => .missing
  | .inappropriateType _ code _ =>
      if faultNumber code = 20 then .notFolder
      else if faultNumber code = 21 then .isFolder
      else .other (toString problem)
  | .invalidArgument _ code _ =>
      if faultNumber code = 36 then .nameTooLong else .other (toString problem)
  | _ => .other (toString problem)

def readFile (path : String) : ExceptT FileFault IO String := do
  match ← (IO.FS.readFile path).toBaseIO with
  | .ok content => pure content
  | .error problem => throw (faultOf problem)

end PetriLogic.CommandLine

open PetriLogic in
def main (arguments : List String) : IO UInt32 := do
  let number ← IO.rand 0 (RunId.limit - 1)
  let outcome ← CommandLine.run CommandLine.readFile (RunId.ofNumber number) arguments
  IO.print outcome.output
  match outcome.complaint with
  | none => pure ()
  | some .usage => IO.eprint CommandLine.usage
  | some (.failure message) => IO.eprintln ("error: " ++ message)
  pure outcome.status
