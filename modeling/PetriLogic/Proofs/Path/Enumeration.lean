import PetriLogic.Proofs.Path.Completions

namespace PetriLogic

/-- A limit refuses a list of paths that is longer than it. -/
def withinLimit (limit : Option Nat) (found : Array Path) : Except Fault (Array Path) :=
  match limit.filter (· < found.size) with
  | some most => .error (.pathLimit most)
  | none => .ok found

/-- Without a limit, everything that was found is handed out. -/
theorem withinLimit_none (found : Array Path) : withinLimit none found = .ok found := rfl

/-- More paths break the same limit. -/
theorem withinLimit_append {limit : Option Nat} {found : Array Path} {most : Nat}
    (exceeded : limit.filter (· < found.size) = some most) (more : Array Path) :
    withinLimit limit (found ++ more) = .error (.pathLimit most) := by
  obtain ⟨rfl, above⟩ := Option.filter_eq_some_iff.1 exceeded
  have below : most < found.size + more.size :=
    Nat.lt_of_lt_of_le (of_decide_eq_true above) (Nat.le_add_right _ _)
  simp [withinLimit, Option.filter, below]

/-- The search finds the maximal paths that its stack begins, from the head on. -/
theorem Search.run_eq (net : Net) (limit : Option Nat) (stack : List Path) (found : Array Path)
    (within : limit.filter (· < found.size) = none) :
    Search.run net limit ⟨stack, found⟩ =
      withinLimit limit (found ++ (stack.flatMap (Path.completions net)).toArray) := by
  -- The stack can grow in a step, but its weight goes down.
  generalize measured : Search.weight net ⟨stack, found⟩ = weight
  induction weight using Nat.strongRecOn generalizing stack found with
  | ind weight inductionHypothesis =>
      cases stack with
      | nil => simp [Search.run, withinLimit, within]
      | cons path stack =>
          have lighter := Search.advanceWeight net path stack found
          rw [measured] at lighter
          rw [Search.run]
          unfold Search.advance at lighter ⊢
          cases maximal : path.isMaximal net with
          | true =>
              simp only [maximal, if_true] at lighter ⊢
              rw [List.flatMap_cons, Path.completions_of_maximal maximal]
              cases exceeded : limit.filter (· < (found.push path).size) with
              | none =>
                  simp only
                  rw [inductionHypothesis _ lighter _ _ exceeded rfl]
                  simp
              | some most =>
                  have whole : found ++ ([path] ++ stack.flatMap (Path.completions net)).toArray =
                      found.push path ++ (stack.flatMap (Path.completions net)).toArray := by simp
                  rw [whole, withinLimit_append exceeded]
          | false =>
              simp only [maximal, Bool.false_eq_true, if_false, within] at lighter ⊢
              rw [inductionHypothesis _ lighter _ _ within rfl, List.flatMap_cons,
                List.flatMap_append, Path.completions_of_extensible maximal]

namespace Net

/-- These are the maximal paths from a node, in the order of the search. -/
def traces (net : Net) (start : Handle) : List Path := (Path.single start).completions net

/-- Exploring a known node runs the search from it. -/
theorem explore_eq_run {net : Net} {start : Handle} (known : start < net.size)
    (limit : Option Nat) (found : Array Path) :
    net.explore limit found start = Search.run net limit ⟨[.single start], found⟩ := by
  have inNet : net.get? start = some net.nodes[start] := Array.getElem?_eq_getElem known
  rw [explore, inNet]

/-- Exploring a known node adds its traces to the paths found before. -/
theorem explore_eq {net : Net} {limit : Option Nat} {found : Array Path} {start : Handle}
    (known : start < net.size) (within : limit.filter (· < found.size) = none) :
    net.explore limit found start = withinLimit limit (found ++ (net.traces start).toArray) := by
  rw [explore_eq_run known, Search.run_eq net limit _ _ within]
  simp [traces]

/-- The nodes are explored one after the other, and the limit counts all their paths. -/
theorem foldlM_explore_eq {net : Net} {limit : Option Nat} {starts : List Handle}
    {found : Array Path} (known : ∀ start ∈ starts, start < net.size)
    (within : limit.filter (· < found.size) = none) :
    starts.foldlM (net.explore limit) found =
      withinLimit limit (found ++ (starts.flatMap net.traces).toArray) := by
  induction starts generalizing found with
  | nil => simp [withinLimit, within, pure, Except.pure]
  | cons start starts inductionHypothesis =>
      rw [List.foldlM_cons, explore_eq (known start List.mem_cons_self) within]
      have whole : found ++ ((start :: starts).flatMap net.traces).toArray =
          found ++ (net.traces start).toArray ++ (starts.flatMap net.traces).toArray := by simp
      rw [whole]
      cases exceeded : limit.filter (· < (found ++ (net.traces start).toArray).size) with
      | none =>
          rw [withinLimit, exceeded]
          exact inductionHypothesis (fun other later => known other (List.mem_cons_of_mem _ later))
            exceeded
      | some most =>
          rw [withinLimit_append exceeded, withinLimit, exceeded]
          rfl

/-- Without a limit, the paths from a known node are its traces. -/
theorem pathsFrom_none {net : Net} {start : Handle} (known : start < net.size) :
    net.pathsFrom none start = .ok ⟨net, net.traces start⟩ := by
  rw [pathsFrom, explore_eq known rfl, withinLimit_none]
  simp [bind, Except.bind, pure, Except.pure]

/-- This set holds the maximal paths from all nodes of a net. -/
def everyPath (net : Net) : PathSet := ⟨net, net.handles.flatMap net.traces⟩

@[simp] theorem everyPath_net (net : Net) : net.everyPath.net = net := rfl

/-- Without a limit, the paths of a net are the traces of all its nodes. -/
theorem allPaths_none (net : Net) : net.allPaths none = .ok net.everyPath := by
  have known : ∀ start ∈ net.handles, start < net.size := fun start member =>
    List.mem_range.1 member
  rw [allPaths, foldlM_explore_eq known rfl, withinLimit_none]
  simp [everyPath, bind, Except.bind, pure, Except.pure]

/--
A trace is a walk that repeats no node before its last one.
It ends where a node comes back or where no arc leads on.
-/
structure IsTrace (net : Net) (start : Handle) (nodes : List Handle) : Prop where
  begins : nodes.head? = some start
  follows : nodes.IsChain net.HasArc
  fresh : nodes.dropLast.Nodup
  stops : ∀ finish ∈ nodes.getLast?, finish ∈ nodes.dropLast ∨ net.successors finish = []

/-- A trace is a walk to its last node. -/
theorem IsTrace.isWalk {net : Net} {start : Handle} {path : Path}
    (trace : net.IsTrace start path.nodes) : net.IsWalk start path.last path.nodes :=
  ⟨trace.begins, path.getLast?_nodes, trace.follows⟩

/-- The path of a trace begins at the start of the trace. -/
theorem IsTrace.first_eq {net : Net} {start : Handle} {path : Path}
    (trace : net.IsTrace start path.nodes) : path.first = start := by
  have begins := trace.begins
  rw [Path.head?_nodes] at begins
  exact Option.some.inj begins

/-- A trace that repeats nothing ends because no arc leads on. -/
theorem IsTrace.stuck_of_nodup {net : Net} {start : Handle} {path : Path}
    (trace : net.IsTrace start path.nodes) (fresh : path.nodes.Nodup) :
    net.successors path.last = [] := by
  rcases trace.stops path.last path.getLast?_nodes with repeated | stuck
  · rw [← path.nodesSplit] at fresh
    exact absurd List.mem_cons_self (List.disjoint_of_nodup_append fresh repeated)
  · exact stuck

/-- A trace shows at its even positions the nodes that have the kind of its start. -/
theorem IsTrace.everyOther_stretch {net : Net} {kind : NodeKind} {start : Handle} {path : Path}
    (trace : net.IsTrace start path.nodes) (consistent : net.Consistent)
    (startKind : net.hasKind kind start = true) :
    everyOther path.stretch = path.stretch.filter (net.hasKind kind) :=
  trace.isWalk.everyOther_part consistent startKind path.stretch_part

/-- The beginning of a trace up to a node of its stretch is a walk to this node. -/
theorem IsTrace.upTo {net : Net} {start node : Handle} {path : Path} {index : Nat}
    (trace : net.IsTrace start path.nodes) (found : path.stretch[index]? = some node) :
    net.IsWalk start node (path.stretch.take (index + 1)) := by
  have isPart := (List.take_prefix (index + 1) path.stretch).trans path.stretch_part
  apply trace.isWalk.takePrefix isPart
  rw [List.take_add_one, found]
  simp

/-- A walk without repetitions that cannot go on is a trace. -/
theorem IsWalk.trace_of_stuck {net : Net} {start finish : Handle} {nodes : List Handle}
    (walk : net.IsWalk start finish nodes) (fresh : nodes.Nodup)
    (stuck : net.successors finish = []) : net.IsTrace start nodes where
  begins := walk.begins
  follows := walk.follows
  fresh := fresh.sublist (List.dropLast_sublist _)
  stops := by
    intro last isLast
    have same : last = finish := Option.some.inj (isLast.symm.trans walk.ends)
    exact .inr (same ▸ stuck)

/-- A walk that comes back to one of its nodes is a trace. -/
theorem IsWalk.trace_of_return {net : Net} {start finish node : Handle} {nodes more : List Handle}
    (walk : net.IsWalk start finish nodes)
    (follows : (nodes ++ (more ++ [node])).IsChain net.HasArc) (fresh : (nodes ++ more).Nodup)
    (closes : node ∈ nodes) : net.IsTrace start (nodes ++ (more ++ [node])) where
  begins := by
    rw [List.head?_append_of_ne_nil _ walk.nonempty]
    exact walk.begins
  follows := follows
  fresh := by
    rw [← List.append_assoc, List.dropLast_concat]
    exact fresh
  stops := by
    intro last isLast
    rw [← List.append_assoc, List.getLast?_concat] at isLast
    rw [← List.append_assoc, List.dropLast_concat]
    exact .inl (Option.some.inj isLast ▸ List.mem_append_left _ closes)

/-- A path stops like a trace exactly when it is maximal. -/
theorem stops_iff {net : Net} {path : Path} :
    (∀ finish ∈ path.nodes.getLast?, finish ∈ path.nodes.dropLast ∨ net.successors finish = []) ↔
      path.isMaximal net = true := by
  simp [Path.isMaximal, Path.getLast?_nodes, Path.beginning, or_comm]

/-- The search from a node finds the traces from it and nothing else. -/
theorem mem_traces_iff {net : Net} (consistent : net.Consistent) {start : Handle} {path : Path} :
    path ∈ net.traces start ↔ net.IsTrace start path.nodes := by
  have singleFollows : (Path.single start).nodes.IsChain net.HasArc := .singleton start
  rw [traces, Path.mem_completions_iff consistent singleFollows .nil]
  constructor
  · intro found
    obtain ⟨⟨rest, whole⟩, follows, fresh, maximal⟩ := found
    exact ⟨by rw [← whole]; rfl, follows, fresh, stops_iff.2 maximal⟩
  · intro trace
    obtain ⟨begins, follows, fresh, stops⟩ := trace
    exact ⟨⟨path.nodes.tail, (List.eq_cons_of_mem_head? begins).symm⟩, follows, fresh,
      stops_iff.1 stops⟩

/-- The traces of a node begin there. -/
theorem first_of_mem_traces {net : Net} (consistent : net.Consistent) {start : Handle} {path : Path}
    (member : path ∈ net.traces start) : path.first = start :=
  ((mem_traces_iff consistent).1 member).first_eq

/-- A walk that repeats no node before its last one is the beginning of a trace. -/
theorem IsWalk.exists_trace_of_beginning {net : Net} (consistent : net.Consistent)
    {start finish : Handle} {nodes : List Handle} (walk : net.IsWalk start finish nodes)
    (fresh : nodes.dropLast.Nodup) : ∃ path ∈ net.traces start, nodes <+: path.nodes := by
  let path : Path := ⟨nodes, walk.nonempty⟩
  have grows : path.completions net ≠ [] := Path.completions_ne_nil path
  obtain ⟨longer, member⟩ := List.exists_mem_of_ne_nil _ grows
  have pathFollows : path.nodes.IsChain net.HasArc := walk.follows
  obtain ⟨isPart, follows, longerFresh, maximal⟩ :=
    (Path.mem_completions_iff consistent pathFollows fresh).1 member
  have begins : longer.nodes.head? = some start := by
    obtain ⟨rest, whole⟩ := isPart
    rw [← whole, List.head?_append_of_ne_nil _ walk.nonempty]
    exact walk.begins
  exact ⟨longer, (mem_traces_iff consistent).2 ⟨begins, follows, longerFresh, stops_iff.2 maximal⟩,
    isPart⟩

/-- A walk without repetitions is the beginning of a trace. -/
theorem IsWalk.exists_trace {net : Net} (consistent : net.Consistent) {start finish : Handle}
    {nodes : List Handle} (walk : net.IsWalk start finish nodes) (fresh : nodes.Nodup) :
    ∃ path ∈ net.traces start, nodes <+: path.nodes :=
  walk.exists_trace_of_beginning consistent (fresh.sublist (List.dropLast_sublist _))

/-- The whole enumeration shows at each node the paths from that node. -/
theorem startingAt_everyPath {net : Net} (consistent : net.Consistent) {start : Handle}
    (known : start < net.size) :
    net.everyPath.startingAt start = net.traces start := by
  obtain ⟨before, after, split⟩ := List.append_of_mem (List.mem_range.2 known)
  have distinct : (before ++ start :: after).Nodup := split ▸ List.nodup_range
  have others {handles : List Handle} (apart : start ∉ handles) :
      (handles.flatMap net.traces).filter (·.first = start) = [] := by
    apply List.filter_eq_nil_iff.2
    intro path member
    obtain ⟨other, inHandles, inTraces⟩ := List.mem_flatMap.1 member
    rw [first_of_mem_traces consistent inTraces]
    intro same
    exact apart (of_decide_eq_true same ▸ inHandles)
  have own : (net.traces start).filter (·.first = start) = net.traces start :=
    List.filter_eq_self.2 fun path member => by
      simp [first_of_mem_traces consistent member]
  rw [PathSet.startingAt, everyPath, handles, split, List.flatMap_append, List.flatMap_cons,
    List.filter_append, List.filter_append, own]
  obtain ⟨_, tailDistinct, apart⟩ := List.nodup_append.1 distinct
  rw [others fun inBefore => apart start inBefore start List.mem_cons_self rfl,
    others (List.nodup_cons.1 tailDistinct).1]
  simp

end Net

end PetriLogic
