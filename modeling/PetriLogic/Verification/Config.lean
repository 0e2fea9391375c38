/-
This file gives the settings of a run.
-/

import PetriLogic.Path.Json

namespace PetriLogic

open Json (Member Reader Value)

/-- The log filter and the wish to check in parallel do not change any verdict. -/
structure Config where
  maxPaths : Option Nat
  scope : Scope
  logFilter : String
  parallel : Bool
deriving DecidableEq

namespace Config

def standard : Config := ⟨some 100000, .all, "info", true⟩

def enumeration (config : Config) : Enumeration := ⟨config.maxPaths, config.scope⟩

def fields : List (Member Config) :=
  [.ofReader "max_paths" false (Json.optional Json.size) fun maxPaths config =>
      { config with maxPaths },
    .ofReader "scope" false Scope.reader fun scope config => { config with scope },
    .ofReader "log_filter" false Json.text fun logFilter config => { config with logFilter },
    .ofReader "parallel" false Json.boolean fun parallel config => { config with parallel }]

def reader : Reader Config := Json.record "CheckerConfig" fields standard

def ofJson (source : String) : Except Json.Problem Config := Json.Reader.run reader source

def toJson (config : Config) : Value :=
  .object [("max_paths", Enumeration.limitToJson config.maxPaths),
    ("scope", config.scope.toJson), ("log_filter", .text config.logFilter),
    ("parallel", .boolean config.parallel)]

end Config

end PetriLogic
