/-
This file reads and writes nodes as JSON.
-/

import PetriLogic.Json.Reader
import PetriLogic.Json.Value
import PetriLogic.Node

namespace PetriLogic

open Json (Member Reader Value Variant)

namespace Labels

def reader : Reader Labels := fun tree => ofList <$> Json.list Json.text tree

def toJson (labels : Labels) : Value := .texts labels.items

end Labels

namespace Place

def fields : List (Member Place) :=
  [.ofReader "id" true Json.text fun id place => { place with id },
    .ofReader "tags" false Labels.reader fun tags place => { place with tags }]

def reader : Reader Place := Json.record "Place" fields ⟨"", .empty⟩

def toJson (place : Place) : Value :=
  .object [("id", .text place.id), ("tags", place.tags.toJson)]

end Place

namespace TransitionKind

def code : TransitionKind → String
  | .app => "APP"
  | .control => "CONTROL"

def reader : Reader TransitionKind :=
  Json.choice [.constant "APP" .app, .constant "CONTROL" .control]

def toJson (kind : TransitionKind) : Value := .text kind.code

end TransitionKind

namespace Conduct

def fields : List (Member Conduct) :=
  [.ofReader "context" false Labels.reader fun context conduct => { conduct with context },
    .ofReader "read" false Labels.reader fun reads conduct => { conduct with reads },
    .ofReader "write" false Labels.reader fun writes conduct => { conduct with writes },
    .ofReader "erase" false Labels.reader fun erases conduct => { conduct with erases },
    .ofReader "kind" false TransitionKind.reader fun kind conduct => { conduct with kind }]

def reader : Reader Conduct := Json.record "ContextObject" fields .idle

def toJson (conduct : Conduct) : Value :=
  .object [("context", conduct.context.toJson), ("read", conduct.reads.toJson),
    ("write", conduct.writes.toJson), ("erase", conduct.erases.toJson),
    ("kind", conduct.kind.toJson)]

end Conduct

namespace Transition

def fields : List (Member Transition) :=
  [.ofReader "id" true Json.text fun id transition => { transition with id },
    .ofReader "context" false Conduct.reader fun conduct transition => { transition with conduct }]

def reader : Reader Transition := Json.record "Transition" fields ⟨"", .idle⟩

def toJson (transition : Transition) : Value :=
  .object [("id", .text transition.id), ("context", transition.conduct.toJson)]

end Transition

namespace Node

def reader : Reader Node :=
  Json.choice [.withContent "Place" Place.reader .place,
    .withContent "Transition" Transition.reader .transition]

def toJson : Node → Value
  | .place value => .object [("Place", value.toJson)]
  | .transition value => .object [("Transition", value.toJson)]

end Node

end PetriLogic
