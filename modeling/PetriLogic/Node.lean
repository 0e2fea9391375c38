/-
This file gives the places and transitions of a net.
-/

import PetriLogic.Labels

namespace PetriLogic

/-- A handle is the position of a node in its net. -/
abbrev Handle := Nat

inductive NodeKind where
  | place
  | transition
deriving DecidableEq

namespace NodeKind

def other : NodeKind → NodeKind
  | .place => .transition
  | .transition => .place

def name : NodeKind → String
  | .place => "place"
  | .transition => "transition"

end NodeKind

structure Place where
  id : String
  tags : Labels
deriving DecidableEq

/-- Control transitions steer a process and application transitions do its work. -/
inductive TransitionKind where
  | app
  | control
deriving DecidableEq

def TransitionKind.name : TransitionKind → String
  | .app => "app"
  | .control => "control"

/-- The data that a transition touches, and the circumstances in which it does. -/
structure Conduct where
  context : Labels
  reads : Labels
  writes : Labels
  erases : Labels
  kind : TransitionKind
deriving DecidableEq

def Conduct.idle : Conduct := ⟨.empty, .empty, .empty, .empty, .app⟩

structure Transition where
  id : String
  conduct : Conduct
deriving DecidableEq

inductive Node where
  | place (place : Place)
  | transition (transition : Transition)
deriving DecidableEq

namespace Node

def id : Node → String
  | .place value => value.id
  | .transition value => value.id

def kind : Node → NodeKind
  | .place _ => .place
  | .transition _ => .transition

def asPlace? : Node → Option Place
  | .place value => some value
  | .transition _ => none

def asTransition? : Node → Option Transition
  | .place _ => none
  | .transition value => some value

def display : Node → String
  | .place value => value.id
  | .transition value => value.id ++ " [" ++ value.conduct.kind.name ++ "]"

end Node

end PetriLogic
