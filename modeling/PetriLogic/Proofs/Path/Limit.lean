import PetriLogic.Proofs.Path.Enumeration

namespace PetriLogic.Net

/-- These are the paths that a scope covers, in the order of the search. -/
def covered (net : Net) (start : Handle) : Scope → List Path
  | .all => net.handles.flatMap net.traces
  | .fromStart => net.traces start

/-- The covered paths are handed out unless there are more of them than the limit admits. -/
def limited (net : Net) (limit : Option Nat) (paths : List Path) : Except Fault PathSet :=
  match limit.filter (· < paths.length) with
  | some most => .error (.pathLimit most)
  | none => .ok ⟨net, paths⟩

/-- Handing out what was found is handing out the limited paths. -/
theorem bind_withinLimit (net : Net) (limit : Option Nat) (paths : List Path) :
    (withinLimit limit (#[] ++ paths.toArray) >>= fun found => pure ⟨net, found.toList⟩) =
      net.limited limit paths := by
  rw [Array.empty_append, withinLimit, limited, List.size_toArray]
  cases limit.filter (· < paths.length) <;> rfl

/-- The paths of a net are all its traces, as far as the limit admits them. -/
theorem allPaths_eq (net : Net) (limit : Option Nat) :
    net.allPaths limit = net.limited limit (net.handles.flatMap net.traces) := by
  have fresh : limit.filter (· < (#[] : Array Path).size) = none := by simp
  have inside : ∀ handle ∈ net.handles, handle < net.size := fun handle member =>
    List.mem_range.1 member
  rw [allPaths, foldlM_explore_eq inside fresh]
  exact bind_withinLimit net limit _

/-- The paths from a node are its traces, as far as the limit admits them. -/
theorem pathsFrom_eq {net : Net} {start : Handle} (known : start < net.size) (limit : Option Nat) :
    net.pathsFrom limit start = net.limited limit (net.traces start) := by
  have fresh : limit.filter (· < (#[] : Array Path).size) = none := by simp
  rw [pathsFrom, explore_eq known fresh]
  exact bind_withinLimit net limit _

/-- The limit decides whether the covered paths are handed out, and it changes nothing else. -/
theorem pathSet_eq {net : Net} {start : Handle} (known : start < net.size)
    (enumeration : Enumeration) :
    net.pathSet enumeration start =
      net.limited enumeration.maxPaths (net.covered start enumeration.scope) := by
  obtain ⟨limit, scope⟩ := enumeration
  cases scope with
  | all => exact net.allPaths_eq limit
  | fromStart => exact pathsFrom_eq known limit

/-- Without a limit, all paths are handed out. -/
theorem limited_none (net : Net) (paths : List Path) : net.limited none paths = .ok ⟨net, paths⟩ :=
  rfl

/-- A limit hands out all paths or none. -/
theorem limited_some (net : Net) (limit : Nat) (paths : List Path) :
    net.limited (some limit) paths =
      if limit < paths.length then .error (.pathLimit limit) else .ok ⟨net, paths⟩ := by
  rw [limited]
  by_cases exceeded : limit < paths.length <;> simp [Option.filter, exceeded]

/-- A limit that is kept makes no difference to the paths. -/
theorem eq_of_limited {net : Net} {limit : Option Nat} {paths : List Path} {set : PathSet}
    (within : net.limited limit paths = .ok set) : set = ⟨net, paths⟩ := by
  unfold limited at within
  split at within
  · cases within
  · exact (Except.ok.inj within).symm

/-- Only nodes of the net are searched from. -/
theorem known_of_pathsFrom {net : Net} {limit : Option Nat} {start : Handle} {set : PathSet}
    (found : net.pathsFrom limit start = .ok set) : start < net.size := by
  by_contra unknown
  have outside : net.get? start = none := Array.getElem?_eq_none (Nat.le_of_not_lt unknown)
  rw [pathsFrom, explore, outside] at found
  cases found

/-- A path that is found is a trace from some node of the net. -/
theorem Consistent.exists_isTrace {net : Net} (consistent : net.Consistent)
    {enumeration : Enumeration} {start : Handle} {set : PathSet}
    (found : net.pathSet enumeration start = .ok set) :
    ∀ path ∈ set.paths, ∃ origin < net.size, net.IsTrace origin path.nodes := by
  obtain ⟨limit, scope⟩ := enumeration
  intro path member
  cases scope with
  | all =>
      rw [pathSet, allPaths_eq] at found
      obtain rfl := eq_of_limited found
      obtain ⟨origin, inNet, inTraces⟩ := List.mem_flatMap.1 member
      exact ⟨origin, List.mem_range.1 inNet, (mem_traces_iff consistent).1 inTraces⟩
  | fromStart =>
      have known := known_of_pathsFrom found
      rw [pathSet, pathsFrom_eq known] at found
      obtain rfl := eq_of_limited found
      exact ⟨start, known, (mem_traces_iff consistent).1 member⟩

/--
The limit is broken exactly when there are more paths without it, in the full scope counted over
all nodes together. A limit that is not broken changes nothing, and neither does a larger one.
-/
theorem limit_exact {net : Net} {start : Handle} (known : start < net.size) (scope : Scope) :
    ∃ paths, net.pathSet ⟨none, scope⟩ start = .ok ⟨net, paths⟩ ∧
      (scope = .all → ∀ pathsOf : Handle → List Path,
        (∀ origin < net.size, net.pathsFrom none origin = .ok ⟨net, pathsOf origin⟩) →
          paths = net.handles.flatMap pathsOf) ∧
      (∀ limit : Nat,
        (net.pathSet ⟨some limit, scope⟩ start = .error (.pathLimit limit) ↔
          limit < paths.length) ∧
        (paths.length ≤ limit → net.pathSet ⟨some limit, scope⟩ start = .ok ⟨net, paths⟩)) ∧
      ∀ (limit larger : Nat) (set : PathSet), limit ≤ larger →
        net.pathSet ⟨some limit, scope⟩ start = .ok set →
          net.pathSet ⟨some larger, scope⟩ start = .ok set := by
  have bounded (limit : Nat) : net.pathSet ⟨some limit, scope⟩ start =
      if limit < (net.covered start scope).length then .error (.pathLimit limit)
      else .ok ⟨net, net.covered start scope⟩ := by
    rw [pathSet_eq known, limited_some]
  refine ⟨net.covered start scope, by rw [pathSet_eq known, limited_none], ?_, ?_, ?_⟩
  · rintro rfl pathsOf each
    refine List.flatMap_congr fun origin inNet => ?_
    have inside := List.mem_range.1 inNet
    have same := (pathsFrom_none inside).symm.trans (each origin inside)
    exact congrArg PathSet.paths (Except.ok.inj same)
  · intro limit
    rw [bounded]
    refine ⟨?_, fun within => if_neg (by omega)⟩
    split <;> simp [*]
  · intro limit larger set above succeeds
    rw [bounded] at succeeds ⊢
    split at succeeds
    · cases succeeds
    · rename_i within
      rw [if_neg (by omega), succeeds]

/-- The search from all nodes of the ring finds ten paths, so a limit of nine is one too low. -/
theorem ringWithExit_limited : 0 < ringWithExit.size ∧
    ringWithExit.pathSet ⟨some 9, .all⟩ 0 = .error (.pathLimit 9) ∧
    ∃ set, ringWithExit.pathSet ⟨none, .all⟩ 0 = .ok set ∧
      ringWithExit.pathSet ⟨some 10, .all⟩ 0 = .ok set ∧
      ringWithExit.pathSet ⟨some 11, .all⟩ 0 = .ok set := by
  have known : 0 < ringWithExit.size := by decide
  have counted : (ringWithExit.pathSet ⟨none, .all⟩ 0).toOption.map (·.paths.length) = some 10 := by
    cbv
  obtain ⟨paths, searched, _, bounded, kept⟩ := limit_exact known .all
  have count : paths.length = 10 := by simpa [searched, Except.toOption] using counted
  have refused := (bounded 9).1.2 (by omega)
  have within := (bounded 10).2 (by omega)
  exact ⟨known, refused, ⟨ringWithExit, paths⟩, searched, within,
    kept 10 11 _ (by omega) within⟩

end PetriLogic.Net
