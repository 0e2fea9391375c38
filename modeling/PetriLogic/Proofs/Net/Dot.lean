import PetriLogic.Net.Dot
import PetriLogic.Proofs.Net.Construction
import PetriLogic.Proofs.Predicate.Acceptance
import PetriLogic.Proofs.Predicate.Layout
import Mathlib.Data.List.TakeWhile

namespace PetriLogic

namespace Text

/-- An escaped text ends where nothing follows that could belong to it. -/
theorem escape_append_inj {first second rest more : List Char}
    (ends : Predicate.quotedCharacter.result rest = none)
    (endsToo : Predicate.quotedCharacter.result more = none)
    (same : escape first ++ rest = escape second ++ more) : first = second ∧ rest = more := by
  have steps (text behind : List Char) :=
    Predicate.steps_escape Predicate.result_quotedCharacter text behind
  have read := Grammar.result_many (steps first rest) ends
  rw [same, Grammar.result_many (steps second more) endsToo] at read
  cases read
  exact ⟨rfl, rfl⟩

/-- The escaped text of several items is put together from their escaped texts. -/
theorem escape_flatMap {Item : Type} (items : List Item) (text : Item → List Char) :
    escape (items.flatMap text) = items.flatMap fun item => escape (text item) := by
  induction items with
  | nil => rfl
  | cons item items inductionHypothesis =>
      rw [List.flatMap_cons, escape_append, inductionHypothesis, List.flatMap_cons]

/-- Texts can be escaped before or after they are joined if nothing in the joint is escaped. -/
theorem escape_intercalate {joint : String} (plain : escape joint.toList = joint.toList)
    (texts : List String) :
    (joint.intercalate (texts.map escaped)).toList = escape (joint.intercalate texts).toList := by
  cases texts with
  | nil => rfl
  | cons first others =>
      rw [List.map_cons, intercalate_cons, intercalate_cons, escape_append, escape_flatMap,
        List.flatMap_map]
      simp only [escaped, String.toList_ofList, escape_append, plain]

/-- A number ends where no digit follows. -/
theorem toString_append_inj {first second : Nat} {mark other : Char} {rest more : List Char}
    (ends : mark.isDigit = false) (endsToo : other.isDigit = false)
    (same : (toString first).toList ++ mark :: rest = (toString second).toList ++ other :: more) :
    first = second ∧ mark :: rest = other :: more := by
  have written (number : Nat) : (toString number).toList = Nat.toDigits 10 number :=
    Nat.toList_repr
  have digits (number : Nat) : ∀ character ∈ Nat.toDigits 10 number, character.isDigit = true :=
    fun _ member => Nat.isDigit_of_mem_toDigits (by decide) (by decide) member
  rw [written, written] at same
  have front := congrArg (List.takeWhile Char.isDigit) same
  rw [List.takeWhile_append_of_pos (digits first), List.takeWhile_append_of_pos (digits second),
    List.takeWhile_cons_of_neg (Bool.eq_false_iff.1 ends),
    List.takeWhile_cons_of_neg (Bool.eq_false_iff.1 endsToo), List.append_nil,
    List.append_nil] at front
  rw [front] at same
  refine ⟨?_, List.append_cancel_left same⟩
  have read := congrArg (Nat.ofDigitChars 10 · 0) front
  simpa only [Nat.ofDigitChars_toDigits (by decide : 1 < 10) (Nat.le_refl 10)] using read

end Text

/-- The captions tell the kinds of transitions apart. -/
theorem TransitionKind.caption_inj {first second : TransitionKind}
    (same : "[" ++ first.name ++ "]" = "[" ++ second.name ++ "]") : first = second := by
  cases first <;> cases second <;> first | rfl | exact absurd same (by decide)

namespace Node

/-- The second line of a label names the tags of a place or the kind of a transition. -/
def caption : Node → Option String
  | .place value =>
      if value.tags.items.isEmpty then none else some (", ".intercalate value.tags.items)
  | .transition value => some ("[" ++ value.conduct.kind.name ++ "]")

/-- This is all that a drawing shows of a node. -/
structure Sketch where
  kind : NodeKind
  id : String
  caption : Option String

/-- The sketch of a node. -/
def sketch (node : Node) : Sketch := ⟨node.kind, node.id, node.caption⟩

/-- The kind of a transition is read off its sketch. -/
theorem kind_of_sketch_eq {first second : Node} (same : first.sketch = second.sketch) :
    first.asTransition?.map (·.conduct.kind) = second.asTransition?.map (·.conduct.kind) := by
  obtain ⟨sameKind, _, sameCaption⟩ := Sketch.mk.inj same
  match first, second with
  | .place _, .place _ => rfl
  | .transition value, .transition other =>
      exact congrArg some (TransitionKind.caption_inj (Option.some.inj sameCaption))
  | .place _, .transition _ | .transition _, .place _ => cases sameKind

end Node

namespace Net

/-- The line behind the separator, which is not there without a caption. -/
def captionLine : Option String → List Char
  | none => []
  | some caption => '\\' :: 'n' :: Text.escape caption.toList

/-- A label consists of the escaped id and the line of the caption. -/
theorem dotLabel_eq (node : Node) :
    (dotLabel node).toList = Text.escape node.id.toList ++ captionLine node.caption := by
  cases node with
  | place place =>
      cases untagged : place.tags.items.isEmpty with
      | true => simp [dotLabel, Node.id, Node.caption, captionLine, untagged, Text.escaped]
      | false =>
          have joined : (", ".intercalate (place.tags.items.map Text.escaped)).toList =
              Text.escape (", ".intercalate place.tags.items).toList :=
            Text.escape_intercalate rfl place.tags.items
          simp [dotLabel, Node.id, Node.caption, captionLine, untagged, joined, Text.escaped]
  | transition transition =>
      have plain : Text.escape ("[" ++ transition.conduct.kind.name ++ "]").toList =
          ("[" ++ transition.conduct.kind.name ++ "]").toList := by
        cases transition.conduct.kind <;> rfl
      rw [Node.caption, captionLine, plain]
      simp [dotLabel, Node.id, Text.escaped]

/-- Neither the separator nor the closing quote of a label is taken for a part of an escaped text. -/
theorem label_ends (caption : Option String) (rest : List Char) :
    Predicate.quotedCharacter.result (captionLine caption ++ '"' :: rest) = none := by
  cases caption <;> rfl

/-- The line of a caption can be read back up to the quote that ends it. -/
theorem captionLine_append_inj {first second : Option String} {rest more : List Char}
    (same : captionLine first ++ '"' :: rest = captionLine second ++ '"' :: more) :
    first = second ∧ rest = more := by
  cases first with
  | none =>
      cases second with
      | none =>
          cases same
          exact ⟨rfl, rfl⟩
      | some caption => cases same
  | some caption =>
      cases second with
      | none => cases same
      | some other =>
          simp only [captionLine, List.cons_append, List.cons.injEq, true_and] at same
          obtain ⟨sameText, behind⟩ := Text.escape_append_inj rfl rfl same
          cases behind
          exact ⟨congrArg some (String.toList_injective sameText), rfl⟩

/-- The line of a node shows its sketch and nothing else. -/
theorem dotNode_eq (handle : Handle) (node : Node) :
    (dotNode handle node).toList = "  n".toList ++ ((toString handle).toList ++
      (' ' :: ("[shape=".toList ++ ((dotShape node.kind).toList ++ (", label=\"".toList ++
        (Text.escape node.id.toList ++
          (captionLine node.caption ++ '"' :: "];\n".toList))))))) := by
  simp [dotNode, dotLabel_eq]

/-- The line of an arc shows its two handles between fixed texts. -/
theorem dotArc_eq (arc : Arc) :
    (dotArc arc).toList = "  n".toList ++ ((toString arc.source).toList ++
      (' ' :: ("-> n".toList ++ ((toString arc.target).toList ++ ';' :: ['\n'])))) := by
  simp [dotArc]

/-- The shape of a node can be read back whatever follows it. -/
theorem dotShape_append_inj {first second : NodeKind} {rest more : List Char}
    (same : (dotShape first).toList ++ rest = (dotShape second).toList ++ more) :
    first = second ∧ rest = more := by
  cases first <;> cases second <;> first
    | exact ⟨rfl, List.append_cancel_left same⟩
    | cases same

/-- The line of a node ends where its sketch is known. -/
theorem dotNode_append_inj {handle : Handle} {first second : Node} {rest more : List Char}
    (same : (dotNode handle first).toList ++ rest = (dotNode handle second).toList ++ more) :
    first.sketch = second.sketch ∧ rest = more := by
  simp only [dotNode_eq, List.append_assoc, List.cons_append, List.append_cancel_left_eq,
    List.cons.injEq, true_and] at same
  obtain ⟨sameKind, afterShape⟩ := dotShape_append_inj same
  have label := List.append_cancel_left afterShape
  obtain ⟨sameId, afterId⟩ := Text.escape_append_inj (label_ends _ _) (label_ends _ _) label
  obtain ⟨sameCaption, afterLabel⟩ := captionLine_append_inj afterId
  refine ⟨?_, List.append_cancel_left afterLabel⟩
  rw [Node.sketch, Node.sketch, sameKind, String.toList_injective sameId, sameCaption]

/-- The line of an arc can be read back whatever follows it. -/
theorem dotArc_append_inj {first second : Arc} {rest more : List Char}
    (same : (dotArc first).toList ++ rest = (dotArc second).toList ++ more) :
    first = second ∧ rest = more := by
  simp only [dotArc_eq, List.append_assoc, List.cons_append, List.append_cancel_left_eq] at same
  obtain ⟨sameSource, afterSource⟩ := Text.toString_append_inj rfl rfl same
  have target := List.append_cancel_left (List.cons.inj afterSource).2
  obtain ⟨sameTarget, afterTarget⟩ := Text.toString_append_inj rfl rfl target
  have later : [';', '\n'] ++ rest = [';', '\n'] ++ more := afterTarget
  cases first
  cases second
  exact ⟨congrArg₂ Arc.mk sameSource sameTarget, List.append_cancel_left later⟩

/-- The lines of the arcs and the bracket that closes the drawing. -/
def dotArcs (arcs : List Arc) : List Char :=
  arcs.flatMap (fun arc => (dotArc arc).toList) ++ "\x7d\n".toList

/-- The lines of the arcs follow each other. -/
theorem dotArcs_cons (arc : Arc) (arcs : List Arc) :
    dotArcs (arc :: arcs) = (dotArc arc).toList ++ dotArcs arcs := by
  rw [dotArcs, List.flatMap_cons, List.append_assoc, dotArcs]

/-- The line of an arc is no closing bracket. -/
theorem dotArcs_cons_ne_nil (arc : Arc) (arcs : List Arc) : dotArcs (arc :: arcs) ≠ dotArcs [] := by
  rw [dotArcs_cons, dotArc_eq]
  intro same
  cases same

/-- The lines of the arcs determine the arcs. -/
theorem dotArcs_inj {first second : List Arc} (same : dotArcs first = dotArcs second) :
    first = second := by
  induction first generalizing second with
  | nil =>
      cases second with
      | nil => rfl
      | cons arc arcs => exact absurd same.symm (dotArcs_cons_ne_nil arc arcs)
  | cons arc arcs inductionHypothesis =>
      cases second with
      | nil => exact absurd same (dotArcs_cons_ne_nil arc arcs)
      | cons other others =>
          rw [dotArcs_cons, dotArcs_cons] at same
          obtain ⟨sameArc, later⟩ := dotArc_append_inj same
          rw [sameArc, inductionHypothesis later]

/-- The line of a node is neither the line of an arc nor a closing bracket. -/
theorem dotNode_ne_dotArcs (handle : Handle) (node : Node) (rest : List Char) (arcs : List Arc) :
    (dotNode handle node).toList ++ rest ≠ dotArcs arcs := by
  intro same
  rw [dotNode_eq] at same
  cases arcs with
  | nil => cases same
  | cons arc arcs =>
      simp only [dotArcs_cons, dotArc_eq, List.append_assoc, List.cons_append,
        List.append_cancel_left_eq] at same
      obtain ⟨_, behind⟩ := Text.toString_append_inj rfl rfl same
      cases behind

/-- The lines of the nodes end where the lines of the arcs begin. -/
theorem dotNodes_append_inj {handle : Handle} {first second : List Node} {arcs others : List Arc}
    (same : (dotNodes handle first).toList ++ dotArcs arcs =
      (dotNodes handle second).toList ++ dotArcs others) :
    first.map Node.sketch = second.map Node.sketch ∧ arcs = others := by
  induction first generalizing handle second with
  | nil =>
      cases second with
      | nil => exact ⟨rfl, dotArcs_inj same⟩
      | cons node nodes =>
          rw [dotNodes, dotNodes, String.toList_append, List.append_assoc] at same
          exact absurd same.symm (dotNode_ne_dotArcs handle node _ arcs)
  | cons node nodes inductionHypothesis =>
      cases second with
      | nil =>
          rw [dotNodes, dotNodes, String.toList_append, List.append_assoc] at same
          exact absurd same (dotNode_ne_dotArcs handle node _ others)
      | cons other rest =>
          simp only [dotNodes, String.toList_append, List.append_assoc] at same
          obtain ⟨sameSketch, later⟩ := dotNode_append_inj same
          obtain ⟨sameSketches, sameArcs⟩ := inductionHypothesis later
          exact ⟨by rw [List.map_cons, List.map_cons, sameSketch, sameSketches], sameArcs⟩

/--
A drawing consists of a head with the escaped id, the lines of the nodes and those of the arcs.
-/
theorem toDot_toList (net : Net) :
    net.toDot.toList = "digraph \"".toList ++ (Text.escape net.id.toList ++
      ('"' :: (" \x7b\n".toList ++
        ((dotNodes 0 net.nodes.toList).toList ++ dotArcs net.arcs.toList)))) := by
  simp [toDot, dotArcs, Text.escaped, String.toList_join, List.flatMap_map]

/-- Nodes with the same sketches have the same lines. -/
theorem dotNodes_of_sketches {handle : Handle} {first second : List Node}
    (same : first.map Node.sketch = second.map Node.sketch) :
    dotNodes handle first = dotNodes handle second := by
  induction first generalizing handle second with
  | nil =>
      cases second with
      | nil => rfl
      | cons node nodes => cases same
  | cons node nodes inductionHypothesis =>
      cases second with
      | nil => cases same
      | cons other others =>
          obtain ⟨sameSketch, later⟩ := List.cons.inj same
          obtain ⟨sameKind, sameId, sameCaption⟩ := Node.Sketch.mk.inj sameSketch
          have sameLine : dotNode handle node = dotNode handle other := by
            apply String.toList_injective
            rw [dotNode_eq, dotNode_eq, sameKind, sameId, sameCaption]
          rw [dotNodes, dotNodes, sameLine, inductionHypothesis later]

/-- A drawing shows the id of the net, the sketches of its nodes and its arcs, and nothing else. -/
theorem toDot_eq_iff {first second : Net} :
    first.toDot = second.toDot ↔
      first.id = second.id ∧
        first.nodes.toList.map Node.sketch = second.nodes.toList.map Node.sketch ∧
        first.arcs = second.arcs := by
  constructor
  · intro same
    have text := congrArg String.toList same
    rw [toDot_toList, toDot_toList] at text
    obtain ⟨sameId, afterId⟩ :=
      Text.escape_append_inj rfl rfl (List.append_cancel_left text)
    have body := List.append_cancel_left (List.cons.inj afterId).2
    obtain ⟨sameSketches, sameArcs⟩ := dotNodes_append_inj body
    exact ⟨String.toList_injective sameId, sameSketches, Array.toList_inj.1 sameArcs⟩
  · rintro ⟨sameId, sameSketches, sameArcs⟩
    apply String.toList_injective
    rw [toDot_toList, toDot_toList, sameId, dotNodes_of_sketches sameSketches, sameArcs]

/--
Nets with the same drawing have the same id and the same arcs in the same order.
They have as many nodes, and at each position nodes of the same kind and id, and transitions of
the same kind.
-/
theorem drawing_exact {first second : Net} (same : first.toDot = second.toDot) :
    first.id = second.id ∧ first.size = second.size ∧
    (∀ handle : Handle,
      first.kind? handle = second.kind? handle ∧
      (first.get? handle).map Node.id = (second.get? handle).map Node.id ∧
      ((first.get? handle).bind Node.asTransition?).map (·.conduct.kind) =
        ((second.get? handle).bind Node.asTransition?).map (·.conduct.kind)) ∧
    first.arcs = second.arcs := by
  obtain ⟨sameId, sameSketches, sameArcs⟩ := toDot_eq_iff.1 same
  refine ⟨sameId, by simpa [size] using congrArg List.length sameSketches, ?_, sameArcs⟩
  intro handle
  have sketches : (first.get? handle).map Node.sketch = (second.get? handle).map Node.sketch := by
    simpa [get?] using congrArg (·[handle]?) sameSketches
  rw [kind?, kind?]
  cases found : first.get? handle with
  | none =>
      rw [found, Option.map_none] at sketches
      rw [Option.map_eq_none_iff.1 sketches.symm]
      exact ⟨rfl, rfl, rfl⟩
  | some node =>
      rw [found, Option.map_some] at sketches
      obtain ⟨other, foundToo, sameSketch⟩ := Option.map_eq_some_iff.1 sketches.symm
      rw [foundToo]
      obtain ⟨sameKind, sameNodeId, _⟩ := Node.Sketch.mk.inj sameSketch.symm
      exact ⟨congrArg some sameKind, congrArg some sameNodeId,
        Node.kind_of_sketch_eq sameSketch.symm⟩

/-- The ids of these nodes look like the ends of labels and like lines of the drawing. -/
def quotedNet (tags : Labels) : Net where
  id := "\" \x7b\n\x7d"
  nodes := #[.place ⟨"A\"];\n  n0 -> n0;\n", tags⟩,
    .transition ⟨"t\\n[app]", { Conduct.idle with kind := .control }⟩]
  arcs := #[⟨0, 1⟩]
  index := [("t\\n[app]", 1), ("A\"];\n  n0 -> n0;\n", 0)]
  outgoing := #[[1], []]
  incoming := #[[], [0]]

/-- The net is what a description loads, whatever labels its transition carries. -/
theorem quotedNet_built (tags : Labels) : (quotedNet tags).Built :=
  Built.ofDescription
    (show ofDescription (quotedNet tags).description = .ok (quotedNet tags) by rfl)

/-- Two tags can look like one, but everything else is told apart. -/
theorem quotedNet_alike :
    (quotedNet ⟨["x", "y"], by decide⟩).Built ∧ (quotedNet ⟨["x, y"], by decide⟩).Built ∧
    quotedNet ⟨["x", "y"], by decide⟩ ≠ quotedNet ⟨["x, y"], by decide⟩ ∧
    (quotedNet ⟨["x", "y"], by decide⟩).toDot = (quotedNet ⟨["x, y"], by decide⟩).toDot ∧
    (quotedNet ⟨["x", "y"], by decide⟩).arcs = (quotedNet ⟨["x, y"], by decide⟩).arcs := by
  have drawn : (quotedNet ⟨["x", "y"], by decide⟩).toDot =
      (quotedNet ⟨["x, y"], by decide⟩).toDot := toDot_eq_iff.2 ⟨rfl, by rfl, rfl⟩
  obtain ⟨_, _, _, sameArcs⟩ := drawing_exact drawn
  exact ⟨quotedNet_built _, quotedNet_built _, by decide, drawn, sameArcs⟩

end Net

end PetriLogic
