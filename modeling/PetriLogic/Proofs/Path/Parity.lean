import PetriLogic.Proofs.Path.Limit
import PetriLogic.Proofs.Path.Positions

namespace PetriLogic.Net

variable {net : Net} {kind : NodeKind} {start finish node : Handle} {nodes : List Handle}
  {path : Path} {loop : Path.Loop}

/-- The nodes at the even positions of a walk have the kind of its start, and the others do not. -/
theorem IsWalk.hasKind_at (walk : net.IsWalk start finish nodes) (consistent : net.Consistent)
    (startKind : net.hasKind kind start = true) {position : Nat}
    (found : nodes[position]? = some node) :
    net.hasKind kind node = (position % 2 == 0) := by
  have inside := (List.getElem?_eq_some_iff.1 found).1
  have size : (nodes.take (position + 1)).length = position + 1 := by
    rw [List.length_take]
    omega
  rw [(walk.upTo found).hasKind_finish consistent kind, startKind, size]
  rcases Nat.mod_two_eq_zero_or_one position with even | odd
  · simp [Nat.add_mod, even]
  · simp [Nat.add_mod, odd]

namespace IsTrace

/-- Up to any position a trace shows the nodes that have the kind of its start. -/
theorem sameKind_eq (trace : net.IsTrace start path.nodes) (consistent : net.Consistent)
    (startKind : net.hasKind kind start = true) (stop : Nat) :
    path.sameKind stop = (path.nodes.take stop).filter (net.hasKind kind) :=
  trace.isWalk.everyOther_part consistent startKind (List.take_prefix stop path.nodes)

/-- A trace repeats no node before its last one, so its loop closes there. -/
theorem close_eq (trace : net.IsTrace start path.nodes) (closes : path.ClosesFirst loop) :
    loop.close + 1 = path.length := by
  have inside := closes.inside
  rw [Path.length]
  by_contra before
  have shown (position : Nat) (below : position ≤ loop.close) :
      path.nodes.dropLast[position]? = path.nodes[position]? := by
    rw [List.getElem?_dropLast, if_pos (by omega)]
  have size : loop.close < path.nodes.dropLast.length := by
    rw [List.length_dropLast]
    omega
  have fresh := List.nodup_iff_getElem?_ne_getElem?.1 trace.fresh _ _ closes.ordered size
  rw [shown _ (Nat.le_of_lt closes.ordered), shown _ (Nat.le_refl _)] at fresh
  exact fresh closes.returns

/-- A loop leads from a node back to the same node, so the kinds change an even number of times. -/
theorem loop_even (trace : net.IsTrace start path.nodes) (consistent : net.Consistent)
    (startKind : net.hasKind kind start = true) (closes : path.ClosesFirst loop) :
    loop.entry % 2 = loop.close % 2 := by
  obtain ⟨node, returned⟩ : ∃ node, path.nodes[loop.close]? = some node :=
    ⟨_, List.getElem?_eq_getElem closes.inside⟩
  have entered := closes.returns.trans returned
  have entryKind := trace.isWalk.hasKind_at consistent startKind entered
  rw [trace.isWalk.hasKind_at consistent startKind returned] at entryKind
  have same : loop.close % 2 = 0 ↔ loop.entry % 2 = 0 := by simpa using entryKind
  omega

end IsTrace

/--
On the paths that the search finds, the even positions are those of the nodes that have the kind of
the first one. A loop comes back at the last position after an even number of arcs, and it is
picked up before that at a node of this kind, which is its entry or the node after it.
-/
theorem positions_exact {net : Net} (built : net.Built) {enumeration : Enumeration}
    {start : Handle} {set : PathSet} (found : net.pathSet enumeration start = .ok set) {path : Path}
    (member : path ∈ set.paths) :
    ∃ kind, net.kind? path.first = some kind ∧
      (∀ stop ≤ path.length,
        path.sameKind stop = (path.nodes.take stop).filter (net.hasKind kind)) ∧
      (path.nodes.filter (net.hasKind kind)).getLast? = some path.lastSameKind ∧
      ∀ loop, path.loop? = some loop →
        loop.close + 1 = path.length ∧
        2 ≤ loop.close - loop.entry ∧ (loop.close - loop.entry) % 2 = 0 ∧
        loop.entry + loop.entry % 2 < loop.close ∧
        (loop.entry + loop.entry % 2 = loop.entry ∨
          loop.entry + loop.entry % 2 = loop.entry + 1) ∧
        ∃ anchor, path.nodes[loop.entry + loop.entry % 2]? = some anchor ∧
          path.anchor? = some anchor ∧ net.hasKind kind anchor = true := by
  have consistent := built.consistent
  obtain ⟨origin, known, trace⟩ := consistent.exists_isTrace found path member
  obtain ⟨kind, isKind⟩ := Option.isSome_iff_exists.1 (kind?_isSome_iff.2 known)
  have startKind : net.hasKind kind origin = true := decide_eq_true isKind
  refine ⟨kind, trace.first_eq ▸ isKind,
    fun stop _ => trace.sameKind_eq consistent startKind stop, ?_, fun loop closes => ?_⟩
  · have whole := trace.sameKind_eq consistent startKind path.nodes.length
    rw [Path.sameKind, List.take_length] at whole
    rw [← whole]
    exact path.everyOther_getLast?
  · have closesFirst := Path.loop?_eq_some_iff.1 closes
    have ordered := closesFirst.ordered
    have even := trace.loop_even consistent startKind closesFirst
    have picked : path.nodes[loop.entry + loop.entry % 2]? = some _ :=
      List.getElem?_eq_getElem (Path.anchorInRange closes)
    refine ⟨trace.close_eq closesFirst, by omega, by omega, by omega, by omega, _, picked, ?_, ?_⟩
    · rw [Path.anchor?, closes]
      exact picked
    · rw [trace.isWalk.hasKind_at consistent startKind picked]
      have evenAnchor : (loop.entry + loop.entry % 2) % 2 = 0 := by omega
      simp [evenAnchor]

/-- The arc S → t leads into the round t → A → t. -/
def lasso : Net where
  id := "lasso"
  nodes := #[.place ⟨"S", .empty⟩, .place ⟨"A", .empty⟩, .transition ⟨"t", .idle⟩]
  arcs := #[⟨0, 2⟩, ⟨2, 1⟩, ⟨1, 2⟩]
  index := [("t", 2), ("A", 1), ("S", 0)]
  outgoing := #[[2], [2], [1]]
  incoming := #[[], [2], [0, 1]]

/-- The net is what its own description loads. -/
theorem lasso_built : lasso.Built :=
  Built.ofDescription (show ofDescription lasso.description = .ok lasso by rfl)

/-- The loop of the lasso is entered at a transition and picked up at the place after it. -/
theorem lasso_positions :
    lasso.Built ∧ lasso.pathSet ⟨none, .fromStart⟩ 0 = .ok ⟨lasso, lasso.traces 0⟩ ∧
    ⟨[0, 2, 1, 2], by decide⟩ ∈ lasso.traces 0 ∧
    Path.sameKind ⟨[0, 2, 1, 2], by decide⟩ 4 = [0, 1] ∧
    Path.loop? ⟨[0, 2, 1, 2], by decide⟩ = some ⟨1, 3⟩ ∧ lasso.hasKind .place 1 = true := by
  have found : lasso.pathSet ⟨none, .fromStart⟩ 0 = .ok ⟨lasso, lasso.traces 0⟩ :=
    pathsFrom_none (by decide)
  have member : ⟨[0, 2, 1, 2], by decide⟩ ∈ lasso.traces 0 :=
    (mem_traces_iff lasso_built.consistent).2 ⟨rfl, by decide, by decide, by decide⟩
  have closes : Path.loop? ⟨[0, 2, 1, 2], by decide⟩ = some ⟨1, 3⟩ := by decide
  obtain ⟨kind, isKind, each, _, loops⟩ := positions_exact lasso_built found member
  obtain rfl : NodeKind.place = kind := Option.some.inj isKind
  obtain ⟨_, _, _, _, _, anchor, picked, _, ofKind⟩ := loops _ closes
  obtain rfl : 1 = anchor := Option.some.inj picked
  exact ⟨lasso_built, found, member, each 4 (by decide), closes, ofKind⟩

end PetriLogic.Net
