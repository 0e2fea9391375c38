/-
This file gives the calls that change nets.
-/

import PetriLogic.Net.Basic

namespace PetriLogic.Net

/-- An edit works on a net step by step, and a fault does not take back the steps before it. -/
abbrev Edit (Result : Type) := ExceptT Fault (StateM Net) Result

namespace Edit

/-- An edit ends with a result or a fault, and with a net in both cases. -/
def apply {Result : Type} (edit : Edit Result) (net : Net) : Except Fault Result × Net :=
  edit.run.run net

section

variable {Value Result : Type} (net : Net)

@[simp] theorem apply_pure (result : Result) :
    (pure result : Edit Result).apply net = (.ok result, net) := rfl

@[simp] theorem apply_throw (fault : Fault) :
    (throw fault : Edit Result).apply net = (.error fault, net) := rfl

@[simp] theorem apply_get_bind (next : Net → Edit Result) :
    (get >>= next).apply net = (next net).apply net := rfl

@[simp] theorem apply_modify (change : Net → Net) :
    (modify change : Edit Unit).apply net = (.ok (), change net) := rfl

@[simp] theorem apply_modify_bind (change : Net → Net) (next : Unit → Edit Result) :
    ((modify change : Edit Unit) >>= next).apply net = (next ()).apply (change net) := rfl

@[simp] theorem apply_answer_bind (value : Value) (next : Value → Edit Result) :
    ((liftM (Except.ok value : Except Fault Value) : Edit Value) >>= next).apply net =
      (next value).apply net := rfl

@[simp] theorem apply_fault_bind (fault : Fault) (next : Value → Edit Result) :
    ((liftM (Except.error fault : Except Fault Value) : Edit Value) >>= next).apply net =
      (.error fault, net) := rfl

end

/-- The net is handed on when the edit succeeds. -/
def attempt {Result : Type} (edit : Edit Result) (net : Net) : Except Fault Net :=
  match edit.apply net with
  | (.ok _, next) => .ok next
  | (.error fault, _) => .error fault

/-- A successful attempt returns the edited net. -/
theorem attempt_eq_ok {Result : Type} {edit : Edit Result} {net next : Net}
    (succeeds : edit.attempt net = .ok next) : (edit.apply net).2 = next := by
  rw [attempt] at succeeds
  split at succeeds
  case h_1 answered =>
    rw [answered]
    exact Except.ok.inj succeeds
  case h_2 => cases succeeds

/-- The handle of the new node is the number of nodes before it. -/
def addNode (node : Node) : Edit Handle := do
  let net ← get
  match net.find? node.id with
  | some _ => throw (.duplicateNode node.id)
  | none =>
      let handle := net.size
      modify fun net => { net with index := (node.id, handle) :: net.index }
      modify fun net => { net with nodes := net.nodes.push node }
      modify fun net => { net with outgoing := net.outgoing.push [] }
      modify fun net => { net with incoming := net.incoming.push [] }
      return handle

def addPlace (place : Place) : Edit Handle := addNode (.place place)

def addTransition (transition : Transition) : Edit Handle := addNode (.transition transition)

/-- The arcs form a set, so an arc that is already there changes nothing. -/
def addArc (source target : Handle) : Edit Unit := do
  let net ← get
  match net.get? source, net.get? target with
  | none, _ => throw (.unknownHandle source)
  | some _, none => throw (.unknownHandle target)
  | some first, some second =>
      if first.kind = second.kind then throw (.sameKind first.id second.id)
      else if target ∈ net.successors source then return
      else
        modify fun net => { net with arcs := net.arcs.push ⟨source, target⟩ }
        modify fun net => { net with outgoing := net.outgoing.modify source (· ++ [target]) }
        modify fun net => { net with incoming := net.incoming.modify target (· ++ [source]) }

/-- Both ids are looked up before an arc is added between their nodes. -/
def connect (source target : String) : Edit Unit := do
  let net ← get
  let first ← net.lookup source
  let second ← net.lookup target
  addArc first second

end Edit

def addNode (net : Net) (node : Node) : Except Fault Net := (Edit.addNode node).attempt net

def addArc (net : Net) (source target : Handle) : Except Fault Net :=
  (Edit.addArc source target).attempt net

def connect (net : Net) (source target : String) : Except Fault Net :=
  (Edit.connect source target).attempt net

end PetriLogic.Net
