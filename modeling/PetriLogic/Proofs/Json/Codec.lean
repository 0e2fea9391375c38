import PetriLogic.Net.Json
import PetriLogic.Proofs.Json.Shape

namespace PetriLogic

namespace Json

/-- A reader finds what was written. -/
def Inverts {Content : Type} (reader : Reader Content) (write : Content → Value) : Prop :=
  ∀ content, reader (write content).shape = .ok content

/-- A refined value is read when the value behind it is read and admitted. -/
theorem run_refine_ok_iff {Raw Cause Content : Type} {reader : Reader Raw}
    {check : Raw → Except Cause Content} (reason : Cause → String) {source : String}
    {content : Content} :
    Reader.run (Reader.refine reader check reason) source = .ok content ↔
      ∃ raw, Reader.run reader source = .ok raw ∧ check raw = .ok content := by
  rw [Reader.run, Reader.run]
  obtain ⟨tree, complete⟩ := Tree.ofText source
  simp only [Reader.refine]
  cases reader tree with
  | error problem => simp [bind, Except.bind]
  | ok raw =>
      cases admitted : check raw <;> cases complete <;>
        simp [bind, Except.bind, pure, Except.pure, Except.mapError, admitted]

/-- The reader of texts finds the text. -/
theorem inverts_text : Inverts text .text := fun _ => rfl

/-- A list is read back if its contents are. -/
theorem Inverts.list {Content : Type} {reader : Reader Content} {write : Content → Value}
    (inverts : Inverts reader write) :
    Inverts (Json.list reader) fun items => .list (items.map write) := by
  intro items
  have each : (Value.shapes (items.map write)).mapM reader = .ok items := by
    induction items with
    | nil => rfl
    | cons item items inductionHypothesis =>
        simp only [List.map_cons, Value.shapes, List.mapM_cons, inverts item, inductionHypothesis]
        rfl
  simp only [Json.list, Value.shape, each]
  rfl

/-- The fields of a record, written in their order, turn one record into another. -/
inductive Fills {Record : Type} :
    List (Member Record) → List (String × Value) → Record → Record → Prop where
  | done (record : Record) : Fills [] [] record record
  | field {Content : Type} {name : String} {required : Bool} {reader : Reader Content}
      {write : Content → Value} {assign : Content → Record → Record}
      {fields : List (Member Record)} {entries : List (String × Value)} {record final : Record}
      (inverts : Inverts reader write) (content : Content)
      (later : Fills fields entries (assign content record) final) :
      Fills (.ofReader name required reader assign :: fields)
        ((name, write content) :: entries) record final

section

variable {Record : Type}

/-- A field is found under its name when no other field has it. -/
theorem find?_name {earlier later : List (Member Record)} {field : Member Record}
    (differ : ((earlier ++ field :: later).map Member.name).Nodup) :
    (earlier ++ field :: later).find? (·.name = field.name) = some field := by
  have apart : earlier.find? (·.name = field.name) = none := by
    rw [List.find?_eq_none]
    intro other member same
    rw [List.map_append, List.nodup_append] at differ
    exact differ.2.2 other.name (List.mem_map_of_mem member) field.name
      (List.mem_map_of_mem List.mem_cons_self) (of_decide_eq_true same)
  simp [apart]

/--
Reading the remaining fields gives the final record when the names seen so far are those of the
earlier fields. Afterwards the names of all fields have been seen.
-/
theorem Fills.fill {earlier fields : List (Member Record)} {entries : List (String × Value)}
    {record final : Record} {seen : List String}
    (fills : Fills fields entries record final)
    (differ : ((earlier ++ fields).map Member.name).Nodup)
    (known : ∀ name, name ∈ seen ↔ name ∈ earlier.map Member.name) :
    ∃ filled, Member.fill (earlier ++ fields) (Value.fieldShapes entries) (record, seen) =
      .ok (final, filled) ∧ ∀ field ∈ earlier ++ fields, field.name ∈ filled := by
  -- Each field that is read moves from the remaining fields to the earlier ones.
  induction fills generalizing earlier seen with
  | done record =>
      refine ⟨seen, rfl, fun field member => (known _).2 ?_⟩
      exact List.mem_map_of_mem (by simpa using member)
  | @field Content name required reader write assign fields entries record final inverts content
      later inductionHypothesis =>
      have isNew : name ∉ seen := by
        rw [known]
        rw [List.map_append, List.nodup_append] at differ
        exact fun member => differ.2.2 name member name List.mem_cons_self rfl
      have split : earlier ++ Member.ofReader name required reader assign :: fields =
          (earlier ++ [Member.ofReader name required reader assign]) ++ fields := by simp
      have knownNext (other : String) : other ∈ name :: seen ↔
          other ∈ (earlier ++ [Member.ofReader name required reader assign]).map Member.name := by
        simp [known, Member.ofReader, or_comm]
      obtain ⟨filled, rest, complete⟩ := inductionHypothesis (split ▸ differ) knownNext
      have found : (earlier ++ Member.ofReader name required reader assign :: fields).find?
          (·.name = name) = some (.ofReader name required reader assign) := find?_name differ
      refine ⟨filled, ?_, fun field member => complete field (split ▸ member)⟩
      rw [Value.fieldShapes, Member.fill, found]
      have isSet : (Member.ofReader name required reader assign).set (write content).shape record =
          .ok (assign content record) := by
        simp only [Member.ofReader, inverts content]
        rfl
      rw [← split] at rest
      simp only [List.contains_eq_mem, isNew, decide_false, isSet]
      exact rest

/-- A record is read back when its fields are written in their order. -/
theorem record_of_fills {title : String} {fields : List (Member Record)}
    {entries : List (String × Value)} {blank final : Record}
    (fills : Fills fields entries blank final) (differ : (fields.map Member.name).Nodup) :
    record title fields blank (Value.object entries).shape = .ok final := by
  have nothing : ∀ name, name ∈ ([] : List String) ↔
      name ∈ ([] : List (Member Record)).map Member.name := by simp
  obtain ⟨filled, read, complete⟩ := fills.fill
    (show (([] ++ fields).map Member.name).Nodup from differ) nothing
  have present : fields.find? (fun field => field.required && !filled.contains field.name) =
      none := by
    rw [List.find?_eq_none]
    intro field member
    simp [complete field member]
  simp only [Value.shape, record]
  rw [List.nil_append] at read
  simp only [read, bind, Except.bind, present]
  rfl

end

end Json

namespace Labels

/-- Labels are determined by their items. -/
theorem eq_of_items {first second : Labels} (same : first.items = second.items) :
    first = second := by
  cases first
  cases second
  cases same
  rfl

/-- A label behind all others is placed at the end. -/
theorem place_of_forall_lt {label : String} {items : List String}
    (below : ∀ item ∈ items, item < label) : place label items = items ++ [label] := by
  induction items with
  | nil => rfl
  | cons first items inductionHypothesis =>
      have before := below first List.mem_cons_self
      rw [place, if_neg (String.lt_asymm before), if_pos before,
        inductionHypothesis fun item member => below item (List.mem_cons_of_mem _ member)]
      rfl

/-- Inserting labels in ascending order lists them in that order. -/
theorem foldl_insert_items {items : List String} {labels : Labels}
    (ascending : (labels.items ++ items).Pairwise (· < ·)) :
    (items.foldl insert labels).items = labels.items ++ items := by
  induction items generalizing labels with
  | nil => simp
  | cons item items inductionHypothesis =>
      have below : ∀ earlier ∈ labels.items, earlier < item := fun earlier member =>
        (List.pairwise_append.1 ascending).2.2 earlier member item List.mem_cons_self
      have placed : (labels.insert item).items = labels.items ++ [item] := place_of_forall_lt below
      rw [List.foldl_cons, inductionHypothesis (by simpa [placed] using ascending), placed,
        List.append_assoc, List.singleton_append]

/-- Labels come back from the list of their items. -/
theorem ofList_items (labels : Labels) : ofList labels.items = labels := by
  have ascending : (empty.items ++ labels.items).Pairwise (· < ·) := labels.ascending
  exact eq_of_items (foldl_insert_items ascending)

/-- Labels are read back from what is written. -/
theorem inverts : Json.Inverts reader toJson := by
  intro labels
  have read : Json.list Json.text (labels.toJson).shape = .ok labels.items :=
    Json.inverts_text.list labels.items
  rw [reader, read]
  exact congrArg Except.ok labels.ofList_items

end Labels

/-- A place is read back from what is written. -/
theorem Place.inverts : Json.Inverts reader toJson := fun place =>
  Json.record_of_fills (.field Json.inverts_text place.id <|
    .field Labels.inverts place.tags <| .done _) (by decide)

/-- A kind of transitions is read back from what is written. -/
theorem TransitionKind.inverts : Json.Inverts reader toJson := by
  intro kind
  cases kind <;> decide

/-- The conduct of a transition is read back from what is written. -/
theorem Conduct.inverts : Json.Inverts reader toJson := fun conduct =>
  Json.record_of_fills (.field Labels.inverts conduct.context <|
    .field Labels.inverts conduct.reads <| .field Labels.inverts conduct.writes <|
    .field Labels.inverts conduct.erases <| .field TransitionKind.inverts conduct.kind <| .done _)
    (by decide)

/-- A transition is read back from what is written. -/
theorem Transition.inverts : Json.Inverts reader toJson := fun transition =>
  Json.record_of_fills (.field Json.inverts_text transition.id <|
    .field Conduct.inverts transition.conduct <| .done _) (by decide)

namespace Net

/-- The description of an arc is read back from what is written. -/
theorem ArcDescription.inverts : Json.Inverts reader toJson := fun arc =>
  Json.record_of_fills (.field Json.inverts_text arc.source <|
    .field Json.inverts_text arc.target <| .done _) (by decide)

/-- The description of a net is read back from what is written. -/
theorem Description.inverts : Json.Inverts reader toJson := fun description =>
  Json.record_of_fills (.field Json.inverts_text description.id <|
    .field Place.inverts.list description.places <|
    .field Transition.inverts.list description.transitions <|
    .field ArcDescription.inverts.list description.arcs <| .done _) (by decide)

end Net

namespace Json.Value

/-- A list of shallow values is no deeper than each of them. -/
theorem depths_map_le {Content : Type} {write : Content → Value} {bound : Nat}
    (shallow : ∀ content, (write content).depth ≤ bound) (contents : List Content) :
    depths (contents.map write) ≤ bound := by
  induction contents with
  | nil => exact Nat.zero_le _
  | cons content contents inductionHypothesis =>
      exact Nat.max_le.2 ⟨shallow content, inductionHypothesis⟩

end Json.Value

open Json.Value (depth depths fieldDepths depths_map_le)

/-- Labels are a flat list. -/
theorem Labels.depth_le (labels : Labels) : labels.toJson.depth ≤ 1 :=
  Nat.succ_le_succ (depths_map_le (fun _ => Nat.le_refl 0) labels.items)

/-- A place has its labels one level down. -/
theorem Place.depth_le (place : Place) : place.toJson.depth ≤ 2 := by
  have tags := place.tags.depth_le
  simp only [toJson, depth, fieldDepths]
  omega

/-- A conduct has its labels one level down. -/
theorem Conduct.depth_le (conduct : Conduct) : conduct.toJson.depth ≤ 2 := by
  have context := conduct.context.depth_le
  have reads := conduct.reads.depth_le
  have writes := conduct.writes.depth_le
  have erases := conduct.erases.depth_le
  simp only [toJson, depth, fieldDepths, TransitionKind.toJson]
  omega

/-- A transition has its conduct one level down. -/
theorem Transition.depth_le (transition : Transition) : transition.toJson.depth ≤ 3 := by
  have conduct := transition.conduct.depth_le
  simp only [toJson, depth, fieldDepths]
  omega

namespace Net

/-- The description of an arc is a flat record. -/
theorem ArcDescription.depth_le (arc : ArcDescription) : arc.toJson.depth ≤ 1 := by
  simp [ArcDescription.toJson, depth, fieldDepths]

/-- The description of a net has its transitions two levels down. -/
theorem Description.depth_le (description : Description) : description.toJson.depth ≤ 5 := by
  have places := depths_map_le Place.depth_le description.places
  have transitions := depths_map_le Transition.depth_le description.transitions
  have arcs := depths_map_le ArcDescription.depth_le description.arcs
  simp only [Description.toJson, depth, fieldDepths]
  omega

/-- A description is read back from its text. -/
theorem Description.read_pretty (description : Description) :
    Json.Reader.run reader (description.toJson.pretty "") = .ok description := by
  have shallow : description.toJson.depth ≤ Json.Tree.deepest :=
    Nat.le_trans description.depth_le (by decide)
  simp only [Json.Reader.run, Json.Value.ofText_pretty shallow, inverts description]
  rfl

end Net

end PetriLogic
