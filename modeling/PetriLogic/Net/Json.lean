/-
This file reads and writes nets as JSON.
-/

import PetriLogic.Net.Description
import PetriLogic.Node.Json

namespace PetriLogic.Net

open Json (Member Reader Value)

namespace ArcDescription

def fields : List (Member ArcDescription) :=
  [.ofReader "source" true Json.text fun source arc => { arc with source },
    .ofReader "target" true Json.text fun target arc => { arc with target }]

def reader : Reader ArcDescription := Json.record "ArcDescription" fields ⟨"", ""⟩

def toJson (arc : ArcDescription) : Value :=
  .object [("source", .text arc.source), ("target", .text arc.target)]

end ArcDescription

namespace Description

def fields : List (Member Description) :=
  [.ofReader "id" true Json.text fun id description => { description with id },
    .ofReader "places" false (Json.list Place.reader) fun places description =>
      { description with places },
    .ofReader "transitions" false (Json.list Transition.reader) fun transitions description =>
      { description with transitions },
    .ofReader "arcs" false (Json.list ArcDescription.reader) fun arcs description =>
      { description with arcs }]

def reader : Reader Description := Json.record "NetDescription" fields ⟨"", [], [], []⟩

def toJson (description : Description) : Value :=
  .object [("id", .text description.id),
    ("places", .list (description.places.map Place.toJson)),
    ("transitions", .list (description.transitions.map Transition.toJson)),
    ("arcs", .list (description.arcs.map ArcDescription.toJson))]

end Description

def reader : Reader Net := Json.Reader.refine Description.reader ofDescription Fault.message

def ofJson (source : String) : Except Fault Net :=
  (Json.Reader.run reader source).mapError .json

def toJson (net : Net) : String := net.description.toJson.pretty ""

end PetriLogic.Net
