import PetriLogic.Proofs.Net.Walks
import PetriLogic.Proofs.Path.Loops

namespace PetriLogic

/-- Half of the nodes of a list are at even positions, rounded up. -/
theorem everyOther_length (nodes : List Handle) :
    (everyOther nodes).length = (nodes.length + 1) / 2 := by
  induction nodes using everyOther.induct with
  | case1 => rfl
  | case2 handle => simp [everyOther]
  | case3 first second rest inductionHypothesis =>
      simp only [everyOther, List.length_cons, inductionHypothesis]
      omega

namespace Path

/--
The loop closes at the first position that shows a node again.
Its entry is the first position of this node.
-/
structure ClosesFirst (path : Path) (loop : Loop) : Prop where
  ordered : loop.entry < loop.close
  inside : loop.close < path.nodes.length
  returns : path.nodes[loop.entry]? = path.nodes[loop.close]?
  entryFirst : ∀ position < loop.entry, path.nodes[position]? ≠ path.nodes[loop.close]?
  closeFirst : ∀ later < loop.close, ∀ earlier < later,
    path.nodes[earlier]? ≠ path.nodes[later]?

instance (path : Path) (loop : Loop) : Decidable (path.ClosesFirst loop) :=
  decidable_of_iff
    (loop.entry < loop.close ∧ loop.close < path.nodes.length ∧
      path.nodes[loop.entry]? = path.nodes[loop.close]? ∧
      (∀ position < loop.entry, path.nodes[position]? ≠ path.nodes[loop.close]?) ∧
      ∀ later < loop.close, ∀ earlier < later, path.nodes[earlier]? ≠ path.nodes[later]?)
    ⟨fun ⟨ordered, inside, returns, entryFirst, closeFirst⟩ =>
      ⟨ordered, inside, returns, entryFirst, closeFirst⟩,
    fun closes => ⟨closes.ordered, closes.inside, closes.returns, closes.entryFirst,
      closes.closeFirst⟩⟩

namespace ClosesFirst

variable {path : Path} {loop other : Loop}

/-- A path on which a loop closes repeats a node. -/
theorem repeats (closes : path.ClosesFirst loop) : ¬path.nodes.Nodup := by
  rw [List.nodup_iff_getElem?_ne_getElem?]
  intro fresh
  exact fresh _ _ closes.ordered closes.inside closes.returns

/-- No loop closes before the first one. -/
theorem close_le (closes : path.ClosesFirst loop) (closesToo : path.ClosesFirst other) :
    loop.close ≤ other.close := by
  by_contra earlier
  exact closes.closeFirst other.close (by omega) other.entry closesToo.ordered closesToo.returns

/--
Loops that close first at the same position have the same entry, as the entry comes first too.
-/
theorem entry_le (closes : path.ClosesFirst loop) (closesToo : path.ClosesFirst other)
    (same : loop.close = other.close) : loop.entry ≤ other.entry := by
  by_contra earlier
  exact closes.entryFirst other.entry (by omega) (same ▸ closesToo.returns)

/-- A path has one loop at most that closes first. -/
theorem unique (closes : path.ClosesFirst loop) (closesToo : path.ClosesFirst other) :
    loop = other := by
  have sameClose := Nat.le_antisymm (closes.close_le closesToo) (closesToo.close_le closes)
  have sameEntry := Nat.le_antisymm (closes.entry_le closesToo sameClose)
    (closesToo.entry_le closes sameClose.symm)
  cases loop
  cases other
  exact congrArg₂ Loop.mk sameEntry sameClose

/-- The first repeated node closes the loop at its first position. -/
theorem of_repeats {before after : List Handle} {handle : Handle}
    (split : path.nodes = before ++ handle :: after) (fresh : before.Nodup)
    (earlier : handle ∈ before) :
    path.ClosesFirst ⟨before.idxOf handle, before.length⟩ := by
  have entry := List.idxOf_lt_length_of_mem earlier
  have shown (position : Nat) (below : position < before.length) :
      path.nodes[position]? = before[position]? := by
    rw [split, List.getElem?_append_left below]
  have closing : path.nodes[before.length]? = some handle := by simp [split]
  have opening : before[before.idxOf handle]? = some handle := by
    rw [List.getElem?_eq_getElem entry, List.getElem_idxOf]
  refine ⟨entry, by simp [split], ?_, ?_, ?_⟩
  · rw [shown _ entry, closing, opening]
  · intro position below same
    have inside : position < before.length := Nat.lt_trans below entry
    rw [shown _ inside, closing, ← opening] at same
    exact Nat.ne_of_lt below ((List.getElem?_inj inside fresh).1 same)
  · intro later below former ordered same
    have inside : former < before.length := Nat.lt_trans ordered below
    rw [shown _ below, shown _ inside] at same
    exact Nat.ne_of_lt ordered ((List.getElem?_inj inside fresh).1 same)

/-- The node after the entry still comes before the end of the loop or closes it. -/
theorem anchor_le (closes : path.ClosesFirst loop) : loop.anchor ≤ loop.close := by
  have ordered := closes.ordered
  simp only [Loop.anchor]
  omega

end ClosesFirst

variable {path : Path} {loop : Loop}

/-- A path has no loop when it repeats nothing. -/
theorem loop?_eq_none_iff : path.loop? = none ↔ path.nodes.Nodup := by
  refine ⟨fun unclosed => ?_, loop?_of_nodup⟩
  rcases nodup_or_repeats path.nodes with fresh | ⟨before, handle, after, split, fresh, earlier⟩
  · exact fresh
  · rw [loop?_of_repeats split fresh earlier] at unclosed
    cases unclosed

/-- The loop that is found is the one that closes first. -/
theorem loop?_eq_some_iff : path.loop? = some loop ↔ path.ClosesFirst loop := by
  have closesFirst {found : Loop} (closes : path.loop? = some found) :
      path.ClosesFirst found := by
    rcases nodup_or_repeats path.nodes with fresh | ⟨before, handle, after, split, fresh, earlier⟩
    · rw [loop?_of_nodup fresh] at closes
      cases closes
    · rw [loop?_of_repeats split fresh earlier] at closes
      exact Option.some.inj closes ▸ .of_repeats split fresh earlier
  refine ⟨closesFirst, fun closes => ?_⟩
  cases found : path.loop? with
  | none => exact absurd (loop?_eq_none_iff.1 found) closes.repeats
  | some other => rw [(closesFirst found).unique closes]

/-- A loop is found when some node is repeated. -/
theorem loop?_isSome_iff : path.loop?.isSome ↔
    ∃ earlier later, earlier < later ∧ later < path.length ∧
      path.nodes[earlier]? = path.nodes[later]? := by
  rw [← Option.ne_none_iff_isSome, Ne, loop?_eq_none_iff, List.nodup_iff_getElem?_ne_getElem?]
  simp only [length, not_forall, Ne, not_not, exists_prop]

/-- A loop is picked up before it closes. -/
theorem anchorInRange (closes : path.loop? = some loop) : loop.anchor < path.nodes.length := by
  have closesFirst := loop?_eq_some_iff.1 closes
  exact Nat.lt_of_le_of_lt closesFirst.anchor_le closesFirst.inside

/-- A walk stops within the path. -/
theorem walkEnd_le (path : Path) : path.walkEnd ≤ path.length := by
  rw [walkEnd]
  cases closes : path.loop? with
  | none => exact Nat.le_refl _
  | some loop => exact Nat.le_of_lt (loop?_eq_some_iff.1 closes).inside

/-- The first round stops within the path. -/
theorem firstRoundEnd_le (path : Path) : path.firstRoundEnd ≤ path.length := by
  rw [firstRoundEnd]
  cases closes : path.loop? with
  | none => exact Nat.le_refl _
  | some loop =>
      have closesFirst := loop?_eq_some_iff.1 closes
      exact Nat.lt_trans closesFirst.ordered closesFirst.inside

/-- The number of nodes gives the last even position, which every path has. -/
theorem lastSameKind_eq (path : Path) :
    path.nodes[path.nodes.length - 1 - (path.nodes.length - 1) % 2]? = some path.lastSameKind :=
  path.nodes_lastEven

/-- The last node at an even position is the last one of the kind of the start. -/
theorem everyOther_getLast? (path : Path) :
    (everyOther path.nodes).getLast? = some path.lastSameKind := by
  have last : 2 * ((path.nodes.length + 1) / 2 - 1) = path.lastEven := by
    have positive := List.length_pos_iff.2 path.nonempty
    simp only [lastEven, length]
    omega
  rw [List.getLast?_eq_getElem?, everyOther_length, everyOther_getElem?, last]
  exact path.nodes_lastEven

end Path

/-- The paths of a node are those that show it at their first position. -/
theorem PathSet.mem_startingAt_iff {set : PathSet} {path : Path} {handle : Handle} :
    path ∈ set.startingAt handle ↔ path ∈ set.paths ∧ path.nodes[0]? = some handle := by
  rw [startingAt, List.mem_filter, decide_eq_true_eq, path.nodes_first, Option.some.injEq]

end PetriLogic
