import PetriLogic.Temporal.Until
import Mathlib.Logic.Relation

namespace PetriLogic

variable {hold goal : Handle → Bool}

namespace Outcome

/-- A walk stays unresolved as long as it holds and misses the goal. -/
theorem ofWalk_eq_unresolved_iff {nodes : List Handle} :
    ofWalk hold goal nodes = .unresolved ↔
      ∀ node ∈ nodes, goal node = false ∧ hold node = true := by
  induction nodes with
  | nil => simp [ofWalk]
  | cons first rest inductionHypothesis =>
      rw [ofWalk, List.forall_mem_cons, ← inductionHypothesis]
      cases goal first <;> cases hold first <;> simp

/-- A walk is violated at a node that does not hold if the goal comes neither there nor earlier. -/
theorem ofWalk_eq_violated_iff {nodes : List Handle} :
    ofWalk hold goal nodes = .violated ↔
      ∃ (index : Nat) (node : Handle), nodes[index]? = some node ∧ hold node = false ∧
        ∀ (earlier : Nat) (other : Handle), earlier ≤ index → nodes[earlier]? = some other →
          goal other = false := by
  induction nodes with
  | nil => simp [ofWalk]
  | cons first rest inductionHypothesis =>
      rw [ofWalk]
      constructor
      · intro violated
        split at violated
        · cases violated
        · rename_i unmet
          have firstMissed : goal first = false := Bool.eq_false_iff.2 unmet
          split at violated
          · obtain ⟨index, node, found, fails, missed⟩ := inductionHypothesis.1 violated
            refine ⟨index + 1, node, found, fails, ?_⟩
            intro earlier other below isOther
            cases earlier with
            | zero =>
                cases isOther
                exact firstMissed
            | succ earlier => exact missed earlier other (by omega) isOther
          · rename_i unheld
            refine ⟨0, first, rfl, Bool.eq_false_iff.2 unheld, ?_⟩
            intro earlier other below isOther
            obtain rfl : earlier = 0 := by omega
            cases isOther
            exact firstMissed
      · intro shown
        obtain ⟨index, node, found, fails, missed⟩ := shown
        have firstMissed : goal first = false := missed 0 first (Nat.zero_le _) rfl
        cases index with
        | zero =>
            cases found
            simp [fails, firstMissed]
        | succ index =>
            -- Positions in the rest are one further on in the whole walk.
            have later : ofWalk hold goal rest = .violated :=
              inductionHypothesis.2 ⟨index, node, found, fails,
                fun earlier other below => missed (earlier + 1) other (by omega)⟩
            simp [firstMissed, later]

/-- A walk that misses the goal everywhere is not satisfied. -/
theorem ofWalk_of_missed {nodes : List Handle} (missed : ∀ node ∈ nodes, goal node = false) :
    ofWalk hold goal nodes = .violated ∨ ofWalk hold goal nodes = .unresolved := by
  cases outcome : ofWalk hold goal nodes with
  | violated => exact .inl rfl
  | unresolved => exact .inr rfl
  | satisfied =>
      induction nodes with
      | nil => cases outcome
      | cons first rest inductionHypothesis =>
          obtain ⟨firstMissed, later⟩ := List.forall_mem_cons.1 missed
          rw [ofWalk, firstMissed] at outcome
          cases holds : hold first with
          | true => exact inductionHypothesis later (by simpa [holds] using outcome)
          | false => simp [holds] at outcome

end Outcome

namespace Obligation

/-- These are the nodes that a path asks about: those of the kind of its start, but not the start. -/
def asked (path : Path) : List Handle := (path.sameKind path.walkEnd).drop 1

/--
A path is broken when its walk is violated, or when it ends undecided without anchor and goal.
-/
theorem ofPath_eq_broken_iff {path : Path} :
    ofPath hold goal path = .broken ↔
      Outcome.ofWalk hold goal (asked path) = .violated ∨
        Outcome.ofWalk hold goal (asked path) = .unresolved ∧ path.anchor? = none ∧
          goal path.lastSameKind = false := by
  unfold ofPath asked
  cases Outcome.ofWalk hold goal ((path.sameKind path.walkEnd).drop 1) with
  | satisfied => simp
  | violated => simp
  | unresolved =>
      cases path.anchor? with
      | some anchor => simp
      | none => cases goal path.lastSameKind <;> simp

/-- A path is deferred when its walk ends undecided and there is an anchor. -/
theorem ofPath_eq_deferred_iff {path : Path} {anchor : Handle} :
    ofPath hold goal path = .deferred anchor ↔
      Outcome.ofWalk hold goal (asked path) = .unresolved ∧ path.anchor? = some anchor := by
  unfold ofPath asked
  cases Outcome.ofWalk hold goal ((path.sameKind path.walkEnd).drop 1) with
  | satisfied => simp
  | violated => simp
  | unresolved =>
      cases path.anchor? with
      | some other => simp
      | none => cases goal path.lastSameKind <;> simp

end Obligation

namespace PathSet

variable {set : PathSet}

/-- Some path from the node is broken. -/
def Breaks (set : PathSet) (hold goal : Handle → Bool) (handle : Handle) : Prop :=
  ∃ path ∈ set.startingAt handle, Obligation.ofPath hold goal path = .broken

/-- Some path from the node asks for the paths of the anchor. -/
def Defers (set : PathSet) (hold goal : Handle → Bool) (handle anchor : Handle) : Prop :=
  ∃ path ∈ set.startingAt handle, Obligation.ofPath hold goal path = .deferred anchor

end PathSet

end PetriLogic
