import PetriLogic.Temporal.Walk
import Mathlib.Data.List.Induction
import Mathlib.Data.List.Nodup

namespace PetriLogic

/-- Nodes are all different, or one of them is the first to come back. -/
theorem nodup_or_repeats (nodes : List Handle) :
    nodes.Nodup ∨ ∃ before handle after, nodes = before ++ handle :: after ∧ before.Nodup ∧
      handle ∈ before := by
  induction nodes using List.reverseRecOn with
  | nil => exact .inl .nil
  | append_singleton nodes last inductionHypothesis =>
      rcases inductionHypothesis with fresh | ⟨before, handle, after, rfl, fresh, earlier⟩
      · by_cases returns : last ∈ nodes
        · exact .inr ⟨nodes, last, [], rfl, fresh, returns⟩
        · exact .inl (List.concat_eq_append ▸ fresh.concat returns)
      · exact .inr ⟨before, handle, after ++ [last], by simp, fresh, earlier⟩

namespace Path

/-- The search for a loop passes over nodes that differ from all nodes before them. -/
theorem loopFrom_skip (seen middle rest : List Handle) (fresh : (seen ++ middle).Nodup) :
    loopFrom (seen ++ middle ++ rest) seen.length (middle ++ rest) =
      loopFrom (seen ++ middle ++ rest) (seen ++ middle).length rest := by
  induction middle generalizing seen with
  | nil => simp
  | cons handle middle inductionHypothesis =>
      have isNew : handle ∉ seen := by
        intro earlier
        exact List.disjoint_of_nodup_append fresh earlier List.mem_cons_self
      have position : (seen ++ handle :: middle ++ rest).idxOf handle = seen.length := by
        simp [List.idxOf_append, isNew]
      have moved := inductionHypothesis (seen ++ [handle]) (by simpa using fresh)
      rw [List.cons_append, loopFrom, position, if_neg (Nat.lt_irrefl _)]
      simpa using moved

/-- A path that repeats no node has no loop. -/
theorem loop?_of_nodup {path : Path} (fresh : path.nodes.Nodup) : path.loop? = none := by
  have skipped := loopFrom_skip [] path.nodes [] (by simpa using fresh)
  simpa [loop?, loopFrom] using skipped

/-- The first node that comes back closes the loop. -/
theorem loop?_of_repeats {path : Path} {before after : List Handle} {handle : Handle}
    (split : path.nodes = before ++ handle :: after) (fresh : before.Nodup)
    (earlier : handle ∈ before) :
    path.loop? = some ⟨before.idxOf handle, before.length⟩ := by
  have position : path.nodes.idxOf handle = before.idxOf handle := by
    rw [split, List.idxOf_append_of_mem earlier]
  have skipped := loopFrom_skip [] before (handle :: after) (by simpa using fresh)
  simp only [List.nil_append, List.length_nil, ← split] at skipped
  rw [loop?, skipped, loopFrom, position, if_pos (List.idxOf_lt_length_of_mem earlier)]

/-- A path that repeats no node has no anchor. -/
theorem anchor?_of_nodup {path : Path} (fresh : path.nodes.Nodup) : path.anchor? = none := by
  rw [anchor?, loop?_of_nodup fresh]
  rfl

/-- The first repeated node determines the anchor. -/
theorem anchor?_of_repeats {path : Path} {before after : List Handle} {handle : Handle}
    (split : path.nodes = before ++ handle :: after) (fresh : before.Nodup)
    (earlier : handle ∈ before) :
    path.anchor? = path.nodes[before.idxOf handle + before.idxOf handle % 2]? := by
  rw [anchor?, loop?_of_repeats split fresh earlier]
  rfl

/-- A path without an anchor repeats nothing. -/
theorem nodup_of_anchor?_eq_none {path : Path} (unanchored : path.anchor? = none) :
    path.nodes.Nodup := by
  rcases nodup_or_repeats path.nodes with fresh | ⟨before, handle, after, split, fresh, earlier⟩
  · exact fresh
  · have entry := List.idxOf_lt_length_of_mem earlier
    have size : path.nodes.length = before.length + (after.length + 1) := by simp [split]
    rw [anchor?_of_repeats split fresh earlier, List.getElem?_eq_none_iff] at unanchored
    omega

/-- The last node of the kind of the start is at the last even position. -/
theorem nodes_lastEven (path : Path) : path.nodes[path.lastEven]? = some path.lastSameKind := by
  simp [lastSameKind]

/-- The first node of a path is at its first position. -/
theorem nodes_first (path : Path) : path.nodes[0]? = some path.first := by
  rw [← List.head?_eq_getElem?, List.head?_eq_some_head path.nonempty, first]

/-- On a path of one or two nodes, the start itself is the last node of its kind. -/
theorem lastSameKind_of_short {path : Path} (short : path.nodes.length < 3) :
    path.lastSameKind = path.first := by
  have begins : path.lastEven = 0 := by
    simp only [lastEven, length]
    omega
  have found := path.nodes_lastEven
  rw [begins, path.nodes_first] at found
  exact (Option.some.inj found).symm

/-- These are the nodes of a path before the one that comes back. -/
def stretch (path : Path) : List Handle := path.nodes.take path.walkEnd

/-- The stretch of a path that repeats no node is the whole path. -/
theorem stretch_of_nodup {path : Path} (fresh : path.nodes.Nodup) : path.stretch = path.nodes := by
  simp [stretch, walkEnd, loop?_of_nodup fresh, length]

/-- The stretch of a path ends before the first repeated node. -/
theorem stretch_of_repeats {path : Path} {before after : List Handle} {handle : Handle}
    (split : path.nodes = before ++ handle :: after) (fresh : before.Nodup)
    (earlier : handle ∈ before) : path.stretch = before := by
  simp [stretch, walkEnd, loop?_of_repeats split fresh earlier, split]

/-- The stretch is the beginning of the path. -/
theorem stretch_part (path : Path) : path.stretch <+: path.nodes := List.take_prefix _ _

/-- The stretch is the longest beginning without repetitions. -/
theorem part_of_stretch {path : Path} {part : List Handle} (isPart : part <+: path.nodes)
    (fresh : part.Nodup) : part <+: path.stretch := by
  rcases nodup_or_repeats path.nodes with
    allFresh | ⟨before, handle, after, split, beforeFresh, earlier⟩
  · rw [stretch_of_nodup allFresh]
    exact isPart
  · rw [stretch_of_repeats split beforeFresh earlier]
    have beforePart : before <+: path.nodes := ⟨handle :: after, split.symm⟩
    rcases List.prefix_or_prefix_of_prefix isPart beforePart with shorter | ⟨rest, rfl⟩
    · exact shorter
    · cases rest with
      | nil => simp
      | cons next rest =>
          -- The part would reach the node that comes back.
          obtain ⟨final, whole⟩ := isPart
          have same : next = handle := by
            rw [split] at whole
            simp only [List.append_assoc, List.cons_append, List.append_cancel_left_eq,
              List.cons.injEq] at whole
            exact whole.1
          subst same
          exact absurd List.mem_cons_self (List.disjoint_of_nodup_append fresh earlier)

/-- These are the nodes of a path up to the entry of its loop. -/
def firstRound (path : Path) : List Handle := path.nodes.take path.firstRoundEnd

/-- The first round of a path that repeats no node is the whole path. -/
theorem firstRound_of_nodup {path : Path} (fresh : path.nodes.Nodup) :
    path.firstRound = path.nodes := by
  simp [firstRound, firstRoundEnd, loop?_of_nodup fresh, length]

/-- The first round of a path ends with the entry of its loop. -/
theorem firstRound_of_repeats {path : Path} {before after : List Handle} {handle : Handle}
    (split : path.nodes = before ++ handle :: after) (fresh : before.Nodup)
    (earlier : handle ∈ before) :
    path.firstRound = path.nodes.take (before.idxOf handle + 1) := by
  simp [firstRound, firstRoundEnd, loop?_of_repeats split fresh earlier]

end Path

end PetriLogic
