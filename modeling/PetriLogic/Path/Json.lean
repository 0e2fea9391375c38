/-
This file reads and writes paths and enumerations as JSON.
-/

import PetriLogic.Json.Reader
import PetriLogic.Json.Value
import PetriLogic.Path.Enumeration

namespace PetriLogic

open Json (Member Reader Value)

namespace Path

def nodesMember : Member (List Handle) :=
  .ofReader "nodes" true (Json.list Json.size) fun nodes _ => nodes

def reader : Reader Path :=
  Json.Reader.refine (Json.record "PathNodes" [nodesMember] []) ofNodes Fault.message

def ofJson (source : String) : Except Fault Path :=
  (Json.Reader.run reader source).mapError .json

def toJson (path : Path) : Value := .object [("nodes", .list (path.nodes.map .natural))]

end Path

namespace Scope

def name : Scope → String
  | .all => "all"
  | .fromStart => "from_start"

def reader : Reader Scope :=
  Json.choice [.constant "all" .all, .constant "from_start" .fromStart]

def toJson (scope : Scope) : Value := .text scope.name

end Scope

namespace Enumeration

/-- Every path of the net is kept unless told otherwise. -/
def unlimited : Enumeration := ⟨none, .all⟩

def limitToJson : Option Nat → Value
  | none => .null
  | some limit => .natural limit

def fields : List (Member Enumeration) :=
  [.ofReader "max_paths" false (Json.optional Json.size) fun maxPaths enumeration =>
      { enumeration with maxPaths },
    .ofReader "scope" false Scope.reader fun scope enumeration => { enumeration with scope }]

def reader : Reader Enumeration := Json.record "EnumeratorConfig" fields unlimited

def ofJson (source : String) : Except Fault Enumeration :=
  (Json.Reader.run reader source).mapError .json

def toJson (enumeration : Enumeration) : Value :=
  .object [("max_paths", limitToJson enumeration.maxPaths), ("scope", enumeration.scope.toJson)]

end Enumeration

end PetriLogic
