import PetriLogic.Proofs.Json.Scalar

namespace PetriLogic.Json

open PetriLogic.Json.Tree (isSpace skipSpaces Remainder)

namespace Value

mutual

/-- The shape that the text of a value has. -/
def shape : Value → Tree
  | .null => .null
  | .boolean value => .boolean value
  | .natural value => .number (numeralOf value)
  | .text value => .text (some value)
  | .list items => .sequence (shapes items) true
  | .object fields => .mapping (fieldShapes fields) true

def shapes : List Value → List Tree
  | [] => []
  | item :: items => item.shape :: shapes items

def fieldShapes : List (String × Value) → List (Tree × Tree)
  | [] => []
  | (name, value) :: fields => (.text (some name), value.shape) :: fieldShapes fields

end

mutual

/-- The number of brackets around the innermost parts of a value. -/
def depth : Value → Nat
  | .list items => depths items + 1
  | .object fields => fieldDepths fields + 1
  | _ => 0

def depths : List Value → Nat
  | [] => 0
  | item :: items => max item.depth (depths items)

def fieldDepths : List (String × Value) → Nat
  | [] => 0
  | (_, value) :: fields => max value.depth (fieldDepths fields)

end

end Value

namespace Tree

/-- Spaces in front of a text are skipped. -/
theorem skipSpaces_append {blanks : List Char} (blank : ∀ character ∈ blanks, isSpace character)
    (rest : List Char) : skipSpaces (blanks ++ rest) = skipSpaces rest :=
  List.dropWhile_append_of_pos blank

/-- Behind skipped spaces, nothing is left to skip. -/
theorem skipSpaces_skipSpaces (source : List Char) :
    skipSpaces (skipSpaces source) = skipSpaces source := by
  induction source with
  | nil => rfl
  | cons character source inductionHypothesis =>
      by_cases blank : isSpace character = true
      · simpa [skipSpaces, blank] using inductionHypothesis
      · simp [skipSpaces, blank]

/-- Values are read from behind the spaces. -/
theorem value_skipSpaces (limit levels : Nat) (source : List Char) :
    value limit levels (skipSpaces source) = value limit levels source := by
  cases limit with
  | zero => simp only [value]
  | succ limit => simp only [value, skipSpaces_skipSpaces]

/-- A value may have spaces in front of it. -/
theorem value_append {blanks : List Char} (blank : ∀ character ∈ blanks, isSpace character)
    (limit levels : Nat) (rest : List Char) :
    value limit levels (blanks ++ rest) = value limit levels rest := by
  rw [← value_skipSpaces, skipSpaces_append blank, value_skipSpaces]

/-- A value may have one more blank in front of it. -/
theorem value_space (limit levels : Nat) (source : List Char) :
    value limit levels (' ' :: source) = value limit levels source := by
  rw [← value_skipSpaces limit levels source, ← value_skipSpaces]
  rfl

/-- Spaces in front of the items make no difference. -/
theorem items_skipSpaces (limit levels : Nat) (source : List Char) :
    items limit levels (skipSpaces source) = items limit levels source := by
  cases limit with
  | zero => simp only [items]
  | succ limit => simp only [items, value_skipSpaces]

/-- Spaces in front of the entries make no difference. -/
theorem entries_skipSpaces (limit levels : Nat) (source : List Char) :
    entries limit levels (skipSpaces source) = entries limit levels source := by
  cases limit with
  | zero => simp only [entries]
  | succ limit => simp only [entries, value_skipSpaces]

/-- The items may begin on a new line. -/
theorem items_newline (limit levels : Nat) (source : List Char) :
    items limit levels ('\n' :: source) = items limit levels source := by
  rw [← items_skipSpaces limit levels source, ← items_skipSpaces]
  rfl

/-- The entries may begin on a new line. -/
theorem entries_newline (limit levels : Nat) (source : List Char) :
    entries limit levels ('\n' :: source) = entries limit levels source := by
  rw [← entries_skipSpaces limit levels source, ← entries_skipSpaces]
  rfl

/-- Nothing is skipped in front of a solid character. -/
theorem skipSpaces_cons {first : Char} (solid : isSpace first = false) (rest : List Char) :
    skipSpaces (first :: rest) = first :: rest := by
  simp [skipSpaces, solid]

/-- A scalar is a value. -/
theorem value_scalar {limit levels : Nat} {first : Char} {source rest : List Char} {tree : Tree}
    (opens : OpensScalar first) (read : scalar? (first :: source) = some (tree, rest)) :
    value (limit + 1) levels (first :: source) = (tree, some rest) := by
  rw [value, skipSpaces_cons opens.1]
  split
  · rename_i same
    cases same
    exact absurd opens (by decide)
  · rename_i same
    cases same
    exact absurd opens (by decide)
  · simp only [read]

/-- The items behind an opening bracket make a sequence. -/
theorem value_sequence {limit levels : Nat} {source : List Char} {contents : List Tree}
    {closed : Bool} {rest : Remainder} (filled : ∀ others, skipSpaces source ≠ ']' :: others)
    (read : items limit levels source = (contents, closed, rest)) :
    value (limit + 1) (levels + 1) ('[' :: source) = (.sequence contents closed, rest) := by
  rw [← items_skipSpaces] at read
  simp only [value, skipSpaces_cons (show isSpace '[' = false from rfl),
    Nat.add_one_ne_zero, if_false, Nat.add_one_sub_one, read]

/-- The entries behind an opening brace make a mapping. -/
theorem value_mapping {limit levels : Nat} {source : List Char} {contents : List (Tree × Tree)}
    {closed : Bool} {rest : Remainder} (filled : ∀ others, skipSpaces source ≠ '\x7d' :: others)
    (read : entries limit levels source = (contents, closed, rest)) :
    value (limit + 1) (levels + 1) ('\x7b' :: source) = (.mapping contents closed, rest) := by
  rw [← entries_skipSpaces] at read
  simp only [value, skipSpaces_cons (show isSpace '\x7b' = false from rfl),
    Nat.add_one_ne_zero, if_false, Nat.add_one_sub_one, read]

section

variable {limit levels : Nat} {source rest after : List Char} {item : Tree}

/-- The last item stands in front of the closing bracket. -/
theorem items_last (read : value limit levels source = (item, some rest))
    (closes : skipSpaces rest = ']' :: after) :
    items (limit + 1) levels source = ([item], true, some after) := by
  simp only [items, read, closes]

/-- More items stand behind a comma. -/
theorem items_more {others : List Tree} {closed : Bool} {remainder : Remainder}
    (read : value limit levels source = (item, some rest)) (parts : skipSpaces rest = ',' :: after)
    (later : items limit levels after = (others, closed, remainder)) :
    items (limit + 1) levels source = (item :: others, closed, remainder) := by
  simp only [items, read, parts, later]

variable {key : Option String} {middle behind : List Char}

/-- The last entry stands in front of the closing brace. -/
theorem entries_last (name : value limit levels source = (.text key, some middle))
    (colon : skipSpaces middle = ':' :: behind)
    (read : value limit levels behind = (item, some rest))
    (closes : skipSpaces rest = '\x7d' :: after) :
    entries (limit + 1) levels source = ([(.text key, item)], true, some after) := by
  simp only [entries, name, colon, read, closes]

/-- More entries stand behind a comma. -/
theorem entries_more {others : List (Tree × Tree)} {closed : Bool} {remainder : Remainder}
    (name : value limit levels source = (.text key, some middle))
    (colon : skipSpaces middle = ':' :: behind)
    (read : value limit levels behind = (item, some rest)) (parts : skipSpaces rest = ',' :: after)
    (later : entries limit levels after = (others, closed, remainder)) :
    entries (limit + 1) levels source = ((.text key, item) :: others, closed, remainder) := by
  simp only [entries, name, colon, read, parts, later]

end

end Tree

namespace Value

/-- The lines of a block behind its opening bracket, each member behind its margin. -/
def rows (margin after : List Char) : String → List String → List Char
  | member, [] => margin ++ (member.toList ++ after)
  | member, next :: members =>
      margin ++ (member.toList ++ ',' :: '\n' :: rows margin after next members)

/-- Members with commas and line feeds between them stand in rows. -/
theorem intercalate_rows (margin : String) (after : List Char) (first : String)
    (members : List String) :
    (",\n".intercalate ((first :: members).map fun member => margin ++ member)).toList ++ after =
      rows margin.toList after first members := by
  induction members generalizing first with
  | nil => simp [rows]
  | cons next members inductionHypothesis =>
      have later := inductionHypothesis next
      simp only [List.map_cons] at later ⊢
      rw [String.intercalate_cons_cons, rows, ← later]
      simp

/-- A block is its opening bracket, its rows and its closing bracket on a line of its own. -/
theorem block_rows (opening closing margin first : String) (members : List String)
    (rest : List Char) :
    (block opening closing margin (first :: members)).toList ++ rest =
      opening.toList ++ '\n' :: rows (margin ++ "  ").toList
        ('\n' :: (margin.toList ++ (closing.toList ++ rest))) first members := by
  rw [← intercalate_rows, block]
  · simp
  · exact List.cons_ne_nil _ _

/-- A value without brackets begins like a scalar. -/
theorem scalar_front {value : Value} (flat : value.depth = 0) :
    ∃ first rest, value.scalar.toList = first :: rest ∧ OpensScalar first := by
  cases value with
  | null => exact ⟨'n', ['u', 'l', 'l'], rfl, by decide⟩
  | boolean value =>
      cases value with
      | true => exact ⟨'t', ['r', 'u', 'e'], rfl, by decide⟩
      | false => exact ⟨'f', ['a', 'l', 's', 'e'], rfl, by decide⟩
  | natural value =>
      obtain ⟨first, rest, front, digit⟩ := toString_front value
      exact ⟨first, rest, front, opensScalar_of_isDigit digit⟩
  | text value =>
      obtain ⟨rest, front⟩ := encodeText_front value
      exact ⟨'"', rest, front, by decide⟩
  | list items => cases flat
  | object fields => cases flat

/-- A flat value is read back from its scalar. -/
theorem scalar?_scalar {value : Value} (flat : value.depth = 0) {rest : List Char}
    (ends : EndsNumeral rest) :
    Tree.scalar? (value.scalar.toList ++ rest) = some (value.shape, rest) := by
  cases value with
  | null => exact scalar?_null rest
  | boolean value => exact scalar?_boolean value rest
  | natural value => exact scalar?_toString value ends
  | text value => exact scalar?_encodeText value rest
  | list items => cases flat
  | object fields => cases flat

/-- The scalar of a flat value is read as a value. -/
theorem value_flat {limit levels : Nat} {value : Value} (flat : value.depth = 0) {rest : List Char}
    (ends : EndsNumeral rest) :
    Tree.value (limit + 1) levels (value.scalar.toList ++ rest) = (value.shape, some rest) := by
  obtain ⟨first, others, front, opens⟩ := scalar_front flat
  have read := scalar?_scalar flat ends
  rw [front] at read ⊢
  exact Tree.value_scalar opens read

/-- The text of a value begins with no space and closes no bracket. -/
theorem pretty_front (margin : String) (value : Value) :
    ∃ first rest, (value.pretty margin).toList = first :: rest ∧ isSpace first = false ∧
      first ≠ ']' := by
  have flat (value : Value) (isFlat : value.depth = 0) :
      ∃ first rest, value.scalar.toList = first :: rest ∧ isSpace first = false ∧ first ≠ ']' := by
    obtain ⟨first, rest, front, solid, apart⟩ := scalar_front isFlat
    exact ⟨first, rest, front, solid, fun same => apart (by simp [same])⟩
  have opened (bracket : Char) (closing : String) (solid : isSpace bracket = false)
      (apart : bracket ≠ ']') (members : List String) :
      ∃ first rest, (block (String.singleton bracket) closing margin members).toList =
        first :: rest ∧ isSpace first = false ∧ first ≠ ']' := by
    have front : ∃ rest, (block (String.singleton bracket) closing margin members).toList =
        bracket :: rest := by
      cases members <;> simp [block]
    obtain ⟨rest, front⟩ := front
    exact ⟨bracket, rest, front, solid, apart⟩
  match value with
  | .null | .boolean true | .boolean false | .natural _ | .text _ => exact flat _ rfl
  | .list items => exact opened '[' "]" rfl (by decide) _
  | .object fields => exact opened '\x7b' "\x7d" rfl (by decide) _

/-- A number ends at a line feed. -/
theorem endsNumeral_newline (rest : List Char) : EndsNumeral ('\n' :: rest) := by
  rintro _ ⟨⟩
  decide

/-- A number ends at a comma. -/
theorem endsNumeral_comma (rest : List Char) : EndsNumeral (',' :: rest) := by
  rintro _ ⟨⟩
  decide

/-- An encoded text is read back as a value. -/
theorem value_encodeText {limit : Nat} (positive : limit ≠ 0) (levels : Nat) (text : String)
    (rest : List Char) :
    Tree.value limit levels ((encodeText text).toList ++ rest) =
      (.text (some text), some rest) := by
  obtain ⟨limit, rfl⟩ := Nat.exists_eq_add_one_of_ne_zero positive
  obtain ⟨others, front⟩ := encodeText_front text
  have read := scalar?_encodeText text rest
  rw [front] at read ⊢
  exact Tree.value_scalar (by decide) read

/-- A flat value is printed as its scalar. -/
theorem pretty_of_flat {value : Value} (flat : value.depth = 0) (margin : String) :
    value.pretty margin = value.scalar := by
  cases value <;> first | rfl | cases flat

/-- A line feed and the margin behind it are skipped. -/
theorem skipSpaces_newline {margin : List Char} (blank : ∀ character ∈ margin, isSpace character)
    {first : Char} (solid : isSpace first = false) (rest : List Char) :
    skipSpaces ('\n' :: (margin ++ first :: rest)) = first :: rest := by
  have newline : skipSpaces ('\n' :: (margin ++ first :: rest)) =
      skipSpaces (margin ++ first :: rest) := by simp [skipSpaces, isSpace]
  rw [newline, Tree.skipSpaces_append blank, Tree.skipSpaces_cons solid]

/-- The first member of a block stands behind spaces. -/
theorem skipSpaces_rows {margin : List Char} (blank : ∀ character ∈ margin, isSpace character)
    {member : String} {first : Char} {text : List Char} (front : member.toList = first :: text)
    (solid : isSpace first = false) (after : List Char) (members : List String) :
    ∃ rest, skipSpaces ('\n' :: rows margin after member members) = first :: rest := by
  cases members <;>
    simp only [rows, front, List.cons_append, skipSpaces_newline blank solid] <;>
    exact ⟨_, rfl⟩

/-- A value is read back from its text, whatever follows. -/
def Reads (levels : Nat) (value : Value) : Prop :=
  ∀ {limit : Nat} {margin : String} {rest : List Char},
    (∀ character ∈ margin.toList, isSpace character) → EndsNumeral rest →
    2 * ((value.pretty margin).toList ++ rest).length < limit →
    Tree.value limit levels ((value.pretty margin).toList ++ rest) = (value.shape, some rest)

section

variable {levels : Nat} {margin inner : String} {rest : List Char}
  (blank : ∀ character ∈ margin.toList, isSpace character)
  (innerBlank : ∀ character ∈ inner.toList, isSpace character)
include blank innerBlank

/--
The rows of a printed list are read back as its items, up to the closing bracket behind them.
Two steps for each character are enough for the items and for what they hold.
-/
theorem items_pretty {limit : Nat} {item : Value} {items : List Value}
    (reads : ∀ other ∈ item :: items, Reads levels other)
    (fuel : 2 * (rows inner.toList ('\n' :: (margin.toList ++ ']' :: rest)) (item.pretty inner)
      (prettyItems inner items)).length + 1 < limit) :
    Tree.items limit levels (rows inner.toList ('\n' :: (margin.toList ++ ']' :: rest))
        (item.pretty inner) (prettyItems inner items)) =
      (shapes (item :: items), true, some rest) := by
  induction items generalizing item limit with
  | nil =>
      obtain ⟨limit, rfl⟩ := Nat.exists_eq_add_one_of_ne_zero (Nat.ne_zero_of_lt fuel)
      simp only [prettyItems, rows, List.length_append] at fuel ⊢
      apply Tree.items_last
      · rw [Tree.value_append innerBlank]
        refine reads item List.mem_cons_self innerBlank (endsNumeral_newline _) ?_
        rw [List.length_append]
        omega
      · exact skipSpaces_newline blank rfl rest
  | cons next items inductionHypothesis =>
      obtain ⟨limit, rfl⟩ := Nat.exists_eq_add_one_of_ne_zero (Nat.ne_zero_of_lt fuel)
      simp only [prettyItems, rows, List.length_append, List.length_cons] at fuel ⊢
      apply Tree.items_more
      -- The margin in front of the item is skipped, and the item ends at the comma behind it.
      · rw [Tree.value_append innerBlank]
        refine reads item List.mem_cons_self innerBlank (endsNumeral_comma _) ?_
        simp only [List.length_append, List.length_cons]
        omega
      · exact Tree.skipSpaces_cons rfl _
      · rw [Tree.items_newline]
        exact inductionHypothesis
          (fun other member => reads other (List.mem_cons_of_mem _ member)) (by omega)

/-- A name is read back from before its value. -/
theorem entries_pretty {limit : Nat} {name : String} {value : Value}
    {fields : List (String × Value)}
    (reads : ∀ field ∈ (name, value) :: fields, Reads levels field.2)
    (fuel : 2 * (rows inner.toList ('\n' :: (margin.toList ++ '\x7d' :: rest))
      (encodeText name ++ ": " ++ value.pretty inner) (prettyFields inner fields)).length + 1 <
        limit) :
    Tree.entries limit levels (rows inner.toList ('\n' :: (margin.toList ++ '\x7d' :: rest))
        (encodeText name ++ ": " ++ value.pretty inner) (prettyFields inner fields)) =
      (fieldShapes ((name, value) :: fields), true, some rest) := by
  have colon : ": ".toList = [':', ' '] := rfl
  induction fields generalizing name value limit with
  | nil =>
      obtain ⟨limit, rfl⟩ := Nat.exists_eq_add_one_of_ne_zero (Nat.ne_zero_of_lt fuel)
      simp only [prettyFields, rows, String.toList_append, List.append_assoc, colon,
        List.cons_append, List.nil_append, List.length_append, List.length_cons] at fuel ⊢
      apply Tree.entries_last
      · rw [Tree.value_append innerBlank]
        exact value_encodeText (by omega) levels name _
      · exact Tree.skipSpaces_cons rfl _
      · rw [Tree.value_space]
        refine reads _ List.mem_cons_self innerBlank (endsNumeral_newline _) ?_
        simp only [List.length_append, List.length_cons]
        omega
      · exact skipSpaces_newline blank rfl rest
  | cons next fields inductionHypothesis =>
      obtain ⟨limit, rfl⟩ := Nat.exists_eq_add_one_of_ne_zero (Nat.ne_zero_of_lt fuel)
      simp only [prettyFields, rows, String.toList_append, List.append_assoc, colon,
        List.cons_append, List.nil_append, List.length_append, List.length_cons] at fuel ⊢
      apply Tree.entries_more
      · rw [Tree.value_append innerBlank]
        exact value_encodeText (by omega) levels name _
      · exact Tree.skipSpaces_cons rfl _
      · rw [Tree.value_space]
        refine reads _ List.mem_cons_self innerBlank (endsNumeral_comma _) ?_
        simp only [List.length_append, List.length_cons]
        omega
      · exact Tree.skipSpaces_cons rfl _
      · rw [Tree.entries_newline]
        exact inductionHypothesis
          (fun other member => reads other (List.mem_cons_of_mem _ member)) (by omega)

end

/-- No item is deeper than the items together. -/
theorem depth_le_of_mem {item : Value} {items : List Value} (member : item ∈ items) :
    item.depth ≤ depths items := by
  induction items with
  | nil => cases member
  | cons first items inductionHypothesis =>
      rw [depths]
      rcases List.mem_cons.1 member with rfl | later
      · exact Nat.le_max_left _ _
      · exact Nat.le_trans (inductionHypothesis later) (Nat.le_max_right _ _)

/-- No field is deeper than the fields together. -/
theorem fieldDepth_le_of_mem {field : String × Value} {fields : List (String × Value)}
    (member : field ∈ fields) : field.2.depth ≤ fieldDepths fields := by
  induction fields with
  | nil => cases member
  | cons first fields inductionHypothesis =>
      rw [fieldDepths]
      rcases List.mem_cons.1 member with rfl | later
      · exact Nat.le_max_left _ _
      · exact Nat.le_trans (inductionHypothesis later) (Nat.le_max_right _ _)

/-- The margin of an inner block consists of spaces. -/
theorem innerBlank {margin : String} (blank : ∀ character ∈ margin.toList, isSpace character) :
    ∀ character ∈ (margin ++ "  ").toList, isSpace character := by
  simp only [String.toList_append, List.mem_append]
  rintro character (member | member)
  · exact blank character member
  · simp_all [isSpace]

/-- A list is read back from its text if its items are. -/
theorem reads_list {levels : Nat} {items : List Value}
    (reads : ∀ item ∈ items, Reads levels item) : Reads (levels + 1) (.list items) := by
  intro limit margin rest blank ends fuel
  obtain ⟨limit, rfl⟩ := Nat.exists_eq_add_one_of_ne_zero (Nat.ne_zero_of_lt fuel)
  have opening : "[".toList = ['['] := rfl
  have closing : "]".toList = [']'] := rfl
  cases items with
  | nil => simp [pretty, prettyItems, block, Tree.value, skipSpaces, isSpace, shape, shapes]
  | cons item items =>
      simp only [pretty, prettyItems, block_rows, shape, opening, closing, List.cons_append,
        List.nil_append, List.length_cons] at fuel ⊢
      obtain ⟨first, text, front, solid, apart⟩ := pretty_front (margin ++ "  ") item
      apply Tree.value_sequence
      · intro others same
        obtain ⟨_, starts⟩ := skipSpaces_rows (innerBlank blank) front solid _ _
        rw [starts] at same
        exact apart (List.cons.inj same).1
      · rw [Tree.items_newline]
        exact items_pretty blank (innerBlank blank) reads (by omega)

/-- An object is read back from its text if its fields are. -/
theorem reads_object {levels : Nat} {fields : List (String × Value)}
    (reads : ∀ field ∈ fields, Reads levels field.2) : Reads (levels + 1) (.object fields) := by
  intro limit margin rest blank ends fuel
  obtain ⟨limit, rfl⟩ := Nat.exists_eq_add_one_of_ne_zero (Nat.ne_zero_of_lt fuel)
  have opening : "\x7b".toList = ['\x7b'] := rfl
  have closing : "\x7d".toList = ['\x7d'] := rfl
  match fields with
  | [] => simp [pretty, prettyFields, block, Tree.value, skipSpaces, isSpace, shape, fieldShapes]
  | (name, value) :: fields =>
      simp only [pretty, prettyFields, block_rows, shape, opening, closing, List.cons_append,
        List.nil_append, List.length_cons] at fuel ⊢
      obtain ⟨text, front⟩ := encodeText_front name
      have front : (encodeText name ++ ": " ++ value.pretty (margin ++ "  ")).toList =
          '"' :: (text ++ ": ".toList ++ (value.pretty (margin ++ "  ")).toList) := by
        simp [front]
      apply Tree.value_mapping
      · intro others same
        obtain ⟨_, starts⟩ := skipSpaces_rows (innerBlank blank) front rfl _ _
        rw [starts] at same
        cases same
      · rw [Tree.entries_newline]
        exact entries_pretty blank (innerBlank blank) reads (by omega)

/-- A flat value is read back from its text. -/
theorem reads_flat {levels : Nat} {value : Value} (flat : value.depth = 0) :
    Reads levels value := by
  intro limit margin rest _ ends fuel
  obtain ⟨limit, rfl⟩ := Nat.exists_eq_add_one_of_ne_zero (Nat.ne_zero_of_lt fuel)
  rw [pretty_of_flat flat]
  exact value_flat flat ends

/-- A text is read back unless its brackets are nested too deeply. -/
theorem reads_of_depth {levels : Nat} {value : Value} (shallow : value.depth ≤ levels) :
    Reads levels value := by
  induction levels generalizing value with
  | zero => exact reads_flat (Nat.le_zero.1 shallow)
  | succ levels inductionHypothesis =>
      cases value with
      | list items =>
          refine reads_list fun item member => inductionHypothesis ?_
          exact Nat.le_trans (depth_le_of_mem member) (Nat.le_of_succ_le_succ shallow)
      | object fields =>
          refine reads_object fun field member => inductionHypothesis ?_
          exact Nat.le_trans (fieldDepth_le_of_mem member) (Nat.le_of_succ_le_succ shallow)
      | null | boolean | natural | text => exact reads_flat rfl

/-- The text of a value has the shape of the value. -/
theorem ofText_pretty {value : Value} (shallow : value.depth ≤ Tree.deepest) :
    Tree.ofText (value.pretty "") = (value.shape, true) := by
  have read : Tree.value (2 * (value.pretty "").toList.length + 2) Tree.deepest
      ((value.pretty "").toList ++ []) = (value.shape, some []) :=
    reads_of_depth shallow (by simp) (by simp [EndsNumeral]) (by simp)
  rw [List.append_nil] at read
  simp only [Tree.ofText, read]
  rfl

end Value

end PetriLogic.Json
