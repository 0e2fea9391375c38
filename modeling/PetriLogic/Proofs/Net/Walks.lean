import PetriLogic.Proofs.Net.Consistency
import PetriLogic.Temporal.Walk
import Mathlib.Data.List.Chain

namespace PetriLogic

/-- Every other node of a list is the one at twice the position. -/
theorem everyOther_getElem? (nodes : List Handle) (index : Nat) :
    (everyOther nodes)[index]? = nodes[2 * index]? := by
  induction nodes using everyOther.induct generalizing index with
  | case1 => rfl
  | case2 handle => cases index <;> simp [everyOther, Nat.mul_succ]
  | case3 first second rest inductionHypothesis =>
      cases index with
      | zero => rfl
      | succ index => simpa [everyOther, Nat.mul_succ] using inductionHypothesis index

/-- Every other node of a list is one at an even position. -/
theorem mem_everyOther_iff {nodes : List Handle} {node : Handle} :
    node ∈ everyOther nodes ↔ ∃ index, nodes[2 * index]? = some node := by
  simp only [List.mem_iff_getElem?, everyOther_getElem?]

/-- A list begins like each of its beginnings. -/
theorem head?_of_part {part nodes : List Handle} {first : Handle} (isPart : part <+: nodes)
    (isFirst : part.head? = some first) : nodes.head? = some first := by
  obtain ⟨rest, rfl⟩ := isPart
  rw [List.head?_append, isFirst, Option.some_or]

namespace Net

/-- A finite walk lists nodes that follow each other along arcs. -/
structure IsWalk (net : Net) (start finish : Handle) (nodes : List Handle) : Prop where
  begins : nodes.head? = some start
  ends : nodes.getLast? = some finish
  follows : nodes.IsChain net.HasArc

namespace IsWalk

variable {net : Net} {start middle finish : Handle} {nodes more : List Handle}

/-- Standing still is a walk. -/
theorem single (net : Net) (start : Handle) : net.IsWalk start start [start] :=
  ⟨rfl, rfl, .singleton start⟩

/-- A walk consists of its start and the nodes after it. -/
theorem eq_cons (walk : net.IsWalk start finish nodes) : nodes = start :: nodes.tail :=
  List.eq_cons_of_mem_head? walk.begins

/-- A walk shows a node at least. -/
theorem nonempty (walk : net.IsWalk start finish nodes) : nodes ≠ [] := by
  rw [walk.eq_cons]
  exact List.cons_ne_nil _ _

/-- A walk shows its finish. -/
theorem finish_mem (walk : net.IsWalk start finish nodes) : finish ∈ nodes :=
  List.mem_of_mem_getLast? walk.ends

/-- A walk goes on where another one ends, and the shared node is listed once. -/
theorem append (first : net.IsWalk start middle nodes) (second : net.IsWalk middle finish more) :
    net.IsWalk start finish (nodes ++ more.tail) where
  begins := by
    rw [first.eq_cons]
    rfl
  ends := by
    have last := second.ends
    rw [second.eq_cons] at last
    rw [List.getLast?_append, first.ends]
    cases tail : more.tail with
    | nil => simpa [tail] using last
    | cons next rest =>
        rw [tail, List.getLast?_cons_cons] at last
        rw [last]
        rfl
  follows := by
    apply first.follows.append second.follows.tail
    intro last isLast next isNext
    have same : last = middle := Option.some.inj (isLast.symm.trans first.ends)
    subst same
    have chain := second.follows
    rw [second.eq_cons] at chain
    exact chain.rel_head? isNext

/-- A nonempty beginning of a walk is a walk to its own last node. -/
theorem takePrefix (walk : net.IsWalk start finish nodes) {part : List Handle}
    (isPart : part <+: nodes) (ends : part.getLast? = some middle) :
    net.IsWalk start middle part where
  begins := by
    obtain ⟨rest, rfl⟩ := isPart
    cases part with
    | nil => cases ends
    | cons first part => exact walk.begins
  ends := ends
  follows := walk.follows.prefix isPart

/-- Every arc changes the kind, so the kind of the last node follows from the length. -/
theorem hasKind_finish (walk : net.IsWalk start finish nodes) (consistent : net.Consistent)
    (kind : NodeKind) :
    net.hasKind kind finish = (net.hasKind kind start == (nodes.length % 2 == 1)) := by
  induction nodes generalizing start with
  | nil => cases walk.begins
  | cons first rest inductionHypothesis =>
      obtain ⟨begins, ends, follows⟩ := walk
      cases begins
      cases rest with
      | nil =>
          cases ends
          simp
      | cons second rest =>
          obtain ⟨arc, later⟩ := List.isChain_cons_cons.1 follows
          rw [List.getLast?_cons_cons] at ends
          rw [inductionHypothesis ⟨rfl, ends, later⟩, arc.hasKind consistent kind]
          rcases Nat.mod_two_eq_zero_or_one rest.length with even | odd
          · simp [Nat.add_mod, even]
          · simp [Nat.add_mod, odd]

end IsWalk

/-- Along arcs the even positions hold the nodes that have the kind of the first one. -/
theorem everyOther_eq_filter {net : Net} {kind : NodeKind} (consistent : net.Consistent)
    {nodes : List Handle} (follows : nodes.IsChain net.HasArc)
    (first : ∀ start ∈ nodes.head?, net.hasKind kind start = true) :
    everyOther nodes = nodes.filter (net.hasKind kind) := by
  induction nodes using everyOther.induct with
  | case1 => rfl
  | case2 handle => simp [everyOther, first handle rfl]
  | case3 start second rest inductionHypothesis =>
      obtain ⟨arc, later⟩ := List.isChain_cons_cons.1 follows
      have startKind := first start rfl
      have secondKind : net.hasKind kind second = false := by
        rw [arc.hasKind consistent kind, startKind]
        rfl
      have restKind : ∀ third ∈ rest.head?, net.hasKind kind third = true := by
        intro third isNext
        rw [(later.rel_head? isNext).hasKind consistent kind, secondKind]
        rfl
      simp [everyOther, startKind, secondKind, inductionHypothesis later.tail restKind]

/-- The even positions of a walk hold its nodes of the first kind. -/
theorem even_iff {net : Net} {kind : NodeKind} (consistent : net.Consistent)
    {nodes : List Handle} (follows : nodes.IsChain net.HasArc)
    (first : ∀ start ∈ nodes.head?, net.hasKind kind start = true) {node : Handle} :
    (∃ index, nodes[2 * index]? = some node) ↔ node ∈ nodes ∧ net.hasKind kind node = true := by
  rw [← mem_everyOther_iff, everyOther_eq_filter consistent follows first, List.mem_filter]

namespace IsWalk

variable {net : Net} {kind : NodeKind} {start finish node : Handle} {nodes : List Handle}

/-- The first node of a walk has the kind of the start. -/
theorem firstKind (walk : net.IsWalk start finish nodes) (known : net.hasKind kind start = true) :
    ∀ first ∈ nodes.head?, net.hasKind kind first = true := by
  intro first isFirst
  rw [walk.begins] at isFirst
  exact Option.some.inj isFirst ▸ known

/-- The front of a walk shows the nodes of the first kind at its even positions. -/
theorem everyOther_part (walk : net.IsWalk start finish nodes) (consistent : net.Consistent)
    (known : net.hasKind kind start = true) {part : List Handle} (isPart : part <+: nodes) :
    everyOther part = part.filter (net.hasKind kind) := by
  have follows := walk.follows.prefix isPart
  apply everyOther_eq_filter consistent follows
  intro first isFirst
  exact walk.firstKind known first (head?_of_part isPart isFirst)

/-- The even positions after the first one hold the later nodes of the first kind. -/
theorem even_later_iff (walk : net.IsWalk start finish nodes) (consistent : net.Consistent)
    (known : net.hasKind kind start = true) :
    (∃ index, 1 ≤ index ∧ nodes[2 * index]? = some node) ↔
      node ∈ nodes.tail ∧ net.hasKind kind node = true := by
  have split : everyOther nodes = start :: nodes.tail.filter (net.hasKind kind) := by
    rw [everyOther_eq_filter consistent walk.follows (walk.firstKind known)]
    conv_lhs => rw [walk.eq_cons, List.filter_cons_of_pos known]
  have shifted (index : Nat) :
      nodes[2 * (index + 1)]? = (nodes.tail.filter (net.hasKind kind))[index]? := by
    rw [← everyOther_getElem?, split, List.getElem?_cons_succ]
  rw [← List.mem_filter, List.mem_iff_getElem?]
  constructor
  · intro shown
    obtain ⟨index, later, found⟩ := shown
    obtain ⟨before, rfl⟩ := Nat.exists_eq_add_of_le' later
    exact ⟨before, shifted before ▸ found⟩
  · intro listed
    obtain ⟨index, found⟩ := listed
    exact ⟨index + 1, by omega, shifted index ▸ found⟩

/-- A walk that visits only nodes of another one from its start keeps its even positions. -/
theorem even_of_subset {other : Handle} {short : List Handle}
    (walk : net.IsWalk start finish nodes) (shortWalk : net.IsWalk start other short)
    (among : short ⊆ nodes) (consistent : net.Consistent) (known : net.hasKind kind start = true)
    (even : ∃ index, short[2 * index]? = some node) : ∃ index, nodes[2 * index]? = some node := by
  obtain ⟨member, ofKind⟩ :=
    (even_iff consistent shortWalk.follows (shortWalk.firstKind known)).1 even
  exact (even_iff consistent walk.follows (walk.firstKind known)).2 ⟨among member, ofKind⟩

/-- A walk can stop at any of its positions. -/
theorem upTo (walk : net.IsWalk start finish nodes) {index : Nat}
    (found : nodes[index]? = some node) : net.IsWalk start node (nodes.take (index + 1)) := by
  apply walk.takePrefix (List.take_prefix _ _)
  rw [List.take_add_one, found]
  simp

end IsWalk

/-- Cutting the rounds out of a sequence keeps its ends and repeats nothing. -/
theorem exists_shortcut {related : Handle → Handle → Prop} {nodes : List Handle}
    (follows : nodes.IsChain related) :
    ∃ short : List Handle, short.IsChain related ∧ short.Nodup ∧ short.head? = nodes.head? ∧
      short.getLast? = nodes.getLast? ∧ short ⊆ nodes := by
  induction nodes with
  | nil => exact ⟨[], .nil, .nil, rfl, rfl, fun _ member => member⟩
  | cons first rest inductionHypothesis =>
      obtain ⟨short, chain, fresh, sameHead, sameLast, among⟩ := inductionHypothesis follows.tail
      by_cases returns : first ∈ short
      · -- The round from the first node back to it is left out.
        obtain ⟨before, after, rfl⟩ := List.append_of_mem returns
        have isSuffix : first :: after <:+ before ++ first :: after := List.suffix_append _ _
        refine ⟨first :: after, chain.suffix isSuffix, fresh.sublist isSuffix.sublist, rfl, ?_, ?_⟩
        · rw [List.getLast?_append_of_ne_nil _ (List.cons_ne_nil _ _)] at sameLast
          cases rest with
          | nil => simp at sameLast
          | cons second rest => rw [sameLast, List.getLast?_cons_cons]
        · intro node member
          exact List.mem_cons_of_mem _ (among (isSuffix.subset member))
      · refine ⟨first :: short, chain.cons ?_, List.nodup_cons.2 ⟨returns, fresh⟩, rfl, ?_, ?_⟩
        · intro second isNext
          exact follows.rel_head? (sameHead ▸ isNext)
        · rw [List.getLast?_cons, List.getLast?_cons, sameLast]
        · exact List.cons_subset_cons _ among

/-- The nodes of a walk include those of a walk without repetitions between the same ends. -/
theorem IsWalk.shorten {net : Net} {start finish : Handle} {nodes : List Handle}
    (walk : net.IsWalk start finish nodes) :
    ∃ short, net.IsWalk start finish short ∧ short.Nodup ∧ short ⊆ nodes := by
  obtain ⟨short, chain, fresh, sameHead, sameLast, among⟩ := exists_shortcut walk.follows
  exact ⟨short, ⟨sameHead.trans walk.begins, sameLast.trans walk.ends, chain⟩, fresh, among⟩

/-- Some arcs lead from one node to the other. -/
def Reaches (net : Net) : Handle → Handle → Prop := Relation.ReflTransGen net.HasArc

/-- A node lies on a cycle when one or more arcs lead from it back to it. -/
def OnCycle (net : Net) (handle : Handle) : Prop := Relation.TransGen net.HasArc handle handle

/-- A node is reached exactly along walks. -/
theorem reaches_iff_walk {net : Net} {start finish : Handle} :
    net.Reaches start finish ↔ ∃ nodes, net.IsWalk start finish nodes := by
  constructor
  · intro reaches
    obtain ⟨rest, chain, last⟩ := List.exists_isChain_cons_of_relationReflTransGen reaches
    refine ⟨start :: rest, rfl, ?_, chain⟩
    rw [List.getLast?_eq_some_getLast (List.cons_ne_nil _ _), last]
  · intro walks
    obtain ⟨nodes, walk⟩ := walks
    have chain := walk.follows
    have ends := walk.ends
    rw [walk.eq_cons] at chain ends
    rw [List.getLast?_eq_some_getLast (List.cons_ne_nil _ _)] at ends
    exact List.relationReflTransGen_of_exists_isChain_cons _ chain (Option.some.inj ends)

/-- What a node reaches is known when the node is. -/
theorem Reaches.known {net : Net} {start finish : Handle} (reaches : net.Reaches start finish)
    (consistent : net.Consistent) (known : start < net.size) : finish < net.size := by
  induction reaches with
  | refl => exact known
  | tail _ arc _ =>
      obtain ⟨kind, _, targetKind⟩ := consistent.arcsAlternate _ arc
      exact kindInRange targetKind

/-- A walk from a known node stays among the nodes of the net. -/
theorem IsWalk.known {net : Net} {start finish : Handle} {nodes : List Handle}
    (walk : net.IsWalk start finish nodes) (consistent : net.Consistent)
    (startKnown : start < net.size) : ∀ node ∈ nodes, node < net.size := by
  intro node member
  obtain ⟨index, found⟩ := List.mem_iff_getElem?.1 member
  exact (reaches_iff_walk.2 ⟨_, walk.upTo found⟩).known consistent startKnown

/-- A node that comes back along arcs lies on a cycle. -/
theorem onCycle_of_repeated {net : Net} {before after : List Handle} {handle : Handle}
    (follows : (before ++ handle :: after).IsChain net.HasArc) (earlier : handle ∈ before) :
    net.OnCycle handle := by
  have ordered := List.isChain_iff_pairwise.1
    (follows.imp fun _ _ arc => Relation.TransGen.single arc)
  exact (List.pairwise_append.1 ordered).2.2 handle earlier handle List.mem_cons_self

/-- A walk to a node on a cycle goes on around it until it meets itself. -/
theorem IsWalk.exists_lasso {net : Net} {start finish : Handle} {nodes : List Handle}
    (walk : net.IsWalk start finish nodes) (fresh : nodes.Nodup) (cyclic : net.OnCycle finish) :
    ∃ more node, (nodes ++ (more ++ [node])).IsChain net.HasArc ∧ (nodes ++ more).Nodup ∧
      node ∈ nodes := by
  obtain ⟨next, arc, returns⟩ := Relation.TransGen.head'_iff.1 cyclic
  obtain ⟨around, backWalk⟩ := reaches_iff_walk.1 returns
  obtain ⟨round, roundWalk, roundFresh, _⟩ := backWalk.shorten
  -- The first node of the round that the walk has seen closes the loop.
  have closes : (round.find? fun node => decide (node ∈ nodes)).isSome :=
    List.find?_isSome.2 ⟨finish, roundWalk.finish_mem, decide_eq_true walk.finish_mem⟩
  obtain ⟨node, found⟩ := Option.isSome_iff_exists.1 closes
  obtain ⟨seen, more, after, rfl, unseen⟩ := List.find?_eq_some_iff_append.1 found
  have partFollows : (more ++ [node]).IsChain net.HasArc :=
    roundWalk.follows.prefix ⟨after, by simp⟩
  refine ⟨more, node, ?_, ?_, of_decide_eq_true seen⟩
  · apply walk.follows.append partFollows
    intro last isLast first isFirst
    have sameLast : last = finish := Option.some.inj (isLast.symm.trans walk.ends)
    have sameFirst : first = next := by
      have begins := roundWalk.begins
      cases more <;> simp_all
    exact sameLast ▸ sameFirst ▸ arc
  · refine List.nodup_append.2 ⟨fresh, (List.nodup_append.1 roundFresh).1, ?_⟩
    intro old inNodes new inMore same
    have := unseen new inMore
    simp [← same, inNodes] at this

end Net

end PetriLogic
