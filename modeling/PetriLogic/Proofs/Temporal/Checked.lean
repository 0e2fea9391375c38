import PetriLogic.Proofs.Path.Positions
import PetriLogic.Temporal.Next
import PetriLogic.Temporal.Until

namespace PetriLogic

/-- The checked test finds everything it reads, and it gives the answer of the test. -/
def Checks {Item : Type} (checked : Item → Option Bool) (test : Item → Bool) : Prop :=
  ∀ item, checked item = some (test item)

namespace Checks

variable {Item : Type} {checked checkedToo : Item → Option Bool} {test testToo : Item → Bool}

/-- A checked test can be tried on some item. -/
theorem any (checks : Checks checked test) (items : List Item) :
    items.anyM checked = some (items.any test) := by
  obtain rfl : checked = some ∘ test := funext checks
  exact List.anyM_pure

/-- A checked test can be tried on all items. -/
theorem all (checks : Checks checked test) (items : List Item) :
    items.allM checked = some (items.all test) := by
  obtain rfl : checked = some ∘ test := funext checks
  exact List.allM_pure

/-- A checked test can be negated. -/
theorem not (checks : Checks checked test) :
    Checks (fun item => (checked item).map (!·)) fun item => !test item := by
  intro item
  simp [checks item]

/-- The second test is read only where the first one holds. -/
theorem and (checks : Checks checked test) (checksToo : Checks checkedToo testToo) :
    Checks (fun item => do if ← checked item then checkedToo item else return false)
      fun item => test item && testToo item := by
  intro item
  cases holds : test item <;> simp [checks item, holds, checksToo item]

/-- Two checked tests can be tried one after the other. -/
theorem or (checks : Checks checked test) (checksToo : Checks checkedToo testToo) :
    Checks (fun item => do if ← checked item then return true else checkedToo item)
      fun item => test item || testToo item := by
  intro item
  cases holds : test item <;> simp [checks item, holds, checksToo item]

end Checks

namespace Path

/-- The nodes before a position, which may be the end of the path but may not lie behind it. -/
def before? (path : Path) (stop : Nat) : Option (List Handle) :=
  if stop ≤ path.length then some (path.nodes.take stop) else none

/-- The checked walk reads the node at every even position before the stop. -/
def sameKind? (path : Path) (stop : Nat) : Option (List Handle) :=
  (path.before? stop).map everyOther

/-- The checked walk finds every node up to a stop within the path. -/
theorem sameKind?_eq {path : Path} {stop : Nat} (inside : stop ≤ path.length) :
    path.sameKind? stop = some (path.sameKind stop) := by
  rw [sameKind?, before?, if_pos inside, Option.map_some, sameKind]

/-- The anchor can be the node that closes the loop, and nothing needs to follow it. -/
example : loop? ⟨[0, 3, 3], by decide⟩ = some ⟨1, 2⟩ ∧ Loop.anchor ⟨1, 2⟩ = 2 := by decide

end Path

section

variable (hold goal : Handle → Option Bool)

/-- The checked operators give nothing when a read on their way leaves a path. -/
def reaches? : List Handle → Option Bool
  | [] => some false
  | handle :: rest => do
      if ← goal handle then return true
      if ← hold handle then reaches? rest else return false

/-- The checked walk asks about the goal before the condition at each node. -/
def Outcome.ofWalk? : List Handle → Option Outcome
  | [] => some .unresolved
  | handle :: rest => do
      if ← goal handle then return .satisfied
      if ← hold handle then ofWalk? rest else return .violated

/-- An anchor beyond the end of the path is a failure, and not a path without a loop. -/
def Obligation.ofPath? (path : Path) : Option Obligation := do
  let walk ← path.sameKind? path.walkEnd
  match ← Outcome.ofWalk? hold goal (walk.drop 1) with
  | .satisfied => return .met
  | .violated => return .broken
  | .unresolved =>
      match path.loop? with
      | some loop => return .deferred (← path.nodes[loop.anchor]?)
      | none => return if ← goal (← path.nodes[path.lastEven]?) then .met else .broken

variable {hold goal}

/-- A checked obligation waits for the anchor of its path too. -/
theorem Obligation.anchorOfDeferred? {path : Path} {anchor : Handle}
    (deferred : ofPath? hold goal path = some (.deferred anchor)) :
    path.anchor? = some anchor := by
  simp only [ofPath?, Option.bind_eq_bind, Option.bind_eq_some_iff] at deferred
  obtain ⟨_, _, outcome, _, deferred⟩ := deferred
  cases outcome with
  | satisfied => cases deferred
  | violated => cases deferred
  | unresolved =>
      cases closes : path.loop? with
      | none =>
          simp only [closes, Option.bind_eq_some_iff] at deferred
          obtain ⟨_, _, met, _, deferred⟩ := deferred
          cases met <;> cases deferred
      | some loop =>
          simp only [closes, Option.bind_eq_some_iff] at deferred
          obtain ⟨_, picked, deferred⟩ := deferred
          cases deferred
          rw [Path.anchor?, closes]
          exact picked

end

section

variable {checkedHold checkedGoal : Handle → Option Bool} {hold goal : Handle → Bool}
  (held : Checks checkedHold hold) (met : Checks checkedGoal goal)
include held met

/-- The checked walk reaches the same goals. -/
theorem reaches?_eq (nodes : List Handle) :
    reaches? checkedHold checkedGoal nodes = some (reaches hold goal nodes) := by
  induction nodes with
  | nil => rfl
  | cons handle rest inductionHypothesis =>
      rw [reaches?, reaches, met handle, held handle, inductionHypothesis]
      cases goal handle <;> cases hold handle <;> rfl

/-- The checked walk has the same outcome. -/
theorem Outcome.ofWalk?_eq (nodes : List Handle) :
    ofWalk? checkedHold checkedGoal nodes = some (ofWalk hold goal nodes) := by
  induction nodes with
  | nil => rfl
  | cons handle rest inductionHypothesis =>
      rw [ofWalk?, ofWalk, met handle, held handle, inductionHypothesis]
      cases goal handle <;> cases hold handle <;> rfl

/-- The last node of a path without a loop is read, or the node where its loop is picked up. -/
theorem Obligation.ofPath?_eq (path : Path) :
    ofPath? checkedHold checkedGoal path = some (ofPath hold goal path) := by
  simp only [ofPath?, ofPath, Path.sameKind?_eq path.walkEnd_le, Option.bind_eq_bind,
    Option.bind_some, Outcome.ofWalk?_eq held met]
  cases Outcome.ofWalk hold goal ((path.sameKind path.walkEnd).drop 1) with
  | satisfied => rfl
  | violated => rfl
  | unresolved =>
      cases closes : path.loop? with
      | none => simp [Path.anchor?, closes, path.nodes_lastEven, met path.lastSameKind]
      | some loop =>
          have picked := List.getElem?_eq_getElem (Path.anchorInRange closes)
          simp [Path.anchor?, Path.get?, closes, picked]

end

namespace PathSet

/-- A filter whose test never fails keeps what the plain filter keeps. -/
theorem filterAuxM_some (test : Path → Bool) (paths kept : List Path) :
    List.filterAuxM (fun path => some (test path)) paths kept =
      some ((paths.filter test).reverse ++ kept) := by
  induction paths generalizing kept with
  | nil => rfl
  | cons path paths inductionHypothesis =>
      cases passes : test path <;> simp [List.filterAuxM, passes, inductionHypothesis]

/-- The checked selection reads the first node of every path. -/
def startingAt? (set : PathSet) (handle : Handle) : Option (List Path) :=
  set.paths.filterM fun path => return (← path.nodes[0]?) = handle

/-- The checked first nodes select the same paths. -/
theorem startingAt?_eq (set : PathSet) (handle : Handle) :
    set.startingAt? handle = some (set.startingAt handle) := by
  simp [startingAt?, startingAt, List.filterM, Path.nodes_first, filterAuxM_some]

/-- The paths that are selected by checked reads are paths of the set. -/
theorem amongStartingAt? {set : PathSet} {handle : Handle} {paths : List Path}
    (shown : set.startingAt? handle = some paths) : ∀ path ∈ paths, path ∈ set.paths := by
  rw [startingAt?_eq] at shown
  exact Option.some.inj shown ▸ amongStartingAt handle

section

variable (set : PathSet) (hold goal : Handle → Option Bool)

/-- The checked existential until. -/
def existsUntil? (handle : Handle) : Option Bool := do
  (← set.startingAt? handle).anyM fun path => do
    reaches? hold goal (← path.sameKind? path.walkEnd)

/-- The checked eventual goal. -/
def eventually? (handle : Handle) : Option Bool := do
  (← set.startingAt? handle).allM fun path => do
    (← path.sameKind? path.firstRoundEnd).anyM goal

/-- Only the answer of an inspection is given, after the same reads. -/
def inspectPaths? (known : List Handle) (paths : List Path)
    (among : ∀ path ∈ paths, path ∈ set.paths) : Option Bool :=
  match paths with
  | [] => some true
  | path :: paths =>
      have later := fun other member => among other (List.mem_cons_of_mem path member)
      match _state : Obligation.ofPath? hold goal path with
      | none => none
      | some .met => inspectPaths? known paths later
      | some .broken => some false
      | some (.deferred anchor) =>
          if _seen : anchor ∈ known then inspectPaths? known paths later
          else
            match shown : set.startingAt? anchor with
            | none => none
            | some more =>
                inspectPaths? (anchor :: known) (more ++ paths)
                  (List.forall_mem_append.2 ⟨amongStartingAt? shown, later⟩)
termination_by ((set.anchors.filter (· ∉ known)).length, paths.length)
decreasing_by
  · apply Prod.Lex.right
    simp
  · apply Prod.Lex.right
    simp
  · apply Prod.Lex.left
    apply fewerUnchecked _ _seen
    exact List.mem_filterMap.2
      ⟨path, among path List.mem_cons_self, Obligation.anchorOfDeferred? _state⟩

/-- The checked universal until. -/
def forallUntil? (handle : Handle) : Option Bool :=
  match shown : set.startingAt? handle with
  | none => none
  | some paths => set.inspectPaths? hold goal [handle] paths (amongStartingAt? shown)

/-- The checked reads at an offset of each path from a node. -/
def atOffset? (handle : Handle) (offset : Nat) : Option (List Handle) :=
  return (← set.startingAt? handle).filterMap fun path => path.get? offset

/-- The checked successors. -/
def successors? (handle : Handle) : Option (List Handle) :=
  return (← set.atOffset? handle 1).eraseDups

end

section

variable (set : PathSet) (later next : Handle → Option Bool) (handle : Handle)

/-- The checked modal operator. -/
def modal? : NodeKind → Option Bool
  | .place => do (← set.successors? handle).anyM next
  | .transition => do (← set.successors? handle).allM next

/-- The checked existential modal operator. -/
def existsModal? : Option Bool := do
  (← set.successors? handle).anyM fun successor => do
    if ← next successor then (← set.successors? successor).allM later else return false

/-- The checked universal modal operator. -/
def forallModal? : Option Bool := do
  let successors ← set.atOffset? handle 1
  let targets ← set.atOffset? handle 2
  if ← successors.allM next then targets.allM later else return false

/-- The checked existential next. -/
def existsNext? : NodeKind → Option Bool
  | .place => do
      (← set.successors? handle).anyM fun successor => do
        (← set.successors? successor).allM later
  | .transition => do
      (← set.successors? handle).anyM fun successor => do
        (← set.successors? successor).anyM later

/-- The checked universal next. -/
def forallNext? : NodeKind → Option Bool
  | .place => Option.map (!·) do
      (← set.successors? handle).anyM fun successor => do
        (← set.successors? successor).allM fun target => (later target).map (!·)
  | .transition => do
      (← set.successors? handle).allM fun successor => do
        (← set.successors? successor).allM later

end

/-- The checked reads at an offset show the same nodes. -/
theorem atOffset?_eq (set : PathSet) (handle : Handle) (offset : Nat) :
    set.atOffset? handle offset = some (set.atOffset handle offset) := by
  simp [atOffset?, atOffset, startingAt?_eq]

/-- The checked reads show the same successors. -/
theorem successors?_eq (set : PathSet) (handle : Handle) :
    set.successors? handle = some (set.successors handle) := by
  simp [successors?, successors, atOffset?_eq]

section

variable (set : PathSet) {checkedHold checkedGoal : Handle → Option Bool}
  {hold goal : Handle → Bool}

/-- The existential until reads within its paths. -/
theorem checksExistsUntil (held : Checks checkedHold hold) (met : Checks checkedGoal goal) :
    Checks (set.existsUntil? checkedHold checkedGoal) (set.existsUntil hold goal) := by
  intro handle
  have checks : Checks
      (fun path : Path => do reaches? checkedHold checkedGoal (← path.sameKind? path.walkEnd))
      fun path => reaches hold goal (path.sameKind path.walkEnd) := by
    intro path
    simp only [Path.sameKind?_eq path.walkEnd_le]
    exact reaches?_eq held met _
  rw [existsUntil?, startingAt?_eq]
  exact checks.any _

/-- The eventual goal reads within its paths. -/
theorem checksEventually (met : Checks checkedGoal goal) :
    Checks (set.eventually? checkedGoal) (set.eventually goal) := by
  intro handle
  have checks : Checks (fun path : Path => do (← path.sameKind? path.firstRoundEnd).anyM checkedGoal)
      fun path => (path.sameKind path.firstRoundEnd).any goal := by
    intro path
    simp only [Path.sameKind?_eq path.firstRoundEnd_le]
    exact met.any _
  rw [eventually?, startingAt?_eq]
  exact checks.all _

section

variable {set} (held : Checks checkedHold hold) (met : Checks checkedGoal goal)
include held met

/-- One step of a checked inspection is one step of the inspection. -/
theorem inspectPaths?_cons {known : List Handle} {path : Path} {paths : List Path}
    {among : ∀ other ∈ path :: paths, other ∈ set.paths} :
    have later := fun other member => among other (List.mem_cons_of_mem path member)
    set.inspectPaths? checkedHold checkedGoal known (path :: paths) among =
      match Obligation.ofPath hold goal path with
      | .met => set.inspectPaths? checkedHold checkedGoal known paths later
      | .broken => some false
      | .deferred anchor =>
          if anchor ∈ known then set.inspectPaths? checkedHold checkedGoal known paths later
          else
            set.inspectPaths? checkedHold checkedGoal (anchor :: known)
              (set.startingAt anchor ++ paths)
              (List.forall_mem_append.2 ⟨amongStartingAt anchor, later⟩) := by
  intro later
  have checked := Obligation.ofPath?_eq held met path
  rw [inspectPaths?]
  -- The matches carry their equations for the termination, so they are opened once, here.
  split
  case h_1 unread => simp [unread] at checked
  case h_2 state => simp [← Option.some.inj (state.symm.trans checked)]
  case h_3 state => simp [← Option.some.inj (state.symm.trans checked)]
  case h_4 anchor state =>
    rw [← Option.some.inj (state.symm.trans checked)]
    simp only [dite_eq_ite]
    congr 1
    have all := startingAt?_eq set anchor
    split
    case h_1 unread => simp [unread] at all
    case h_2 more shown =>
      obtain rfl := Option.some.inj (shown.symm.trans all)
      rfl

/-- The checked inspection gives the answer of the plain one. -/
theorem inspectPaths?_eq (known : List Handle) (paths : List Path)
    (among : ∀ path ∈ paths, path ∈ set.paths) :
    set.inspectPaths? checkedHold checkedGoal known paths among =
      some (set.inspectPaths hold goal known paths among).answer := by
  fun_induction set.inspectPaths hold goal known paths among with
  | case1 => rw [inspectPaths?]
  | case2 known path paths _ _ state _ inductionHypothesis =>
      rw [inspectPaths?_cons held met, state]
      exact inductionHypothesis
  | case3 known path paths _ _ state => rw [inspectPaths?_cons held met, state]
  | case4 known path paths _ _ anchor state seen _ inductionHypothesis =>
      rw [inspectPaths?_cons held met, state]
      exact (if_pos seen).trans inductionHypothesis
  | case5 known path paths _ _ anchor state isNew _ _ inductionHypothesis =>
      rw [inspectPaths?_cons held met, state]
      exact (if_neg isNew).trans inductionHypothesis

end

/-- The universal until reads within its paths. -/
theorem checksForallUntil (held : Checks checkedHold hold) (met : Checks checkedGoal goal) :
    Checks (set.forallUntil? checkedHold checkedGoal) (set.forallUntil hold goal) := by
  intro handle
  have all := startingAt?_eq set handle
  rw [forallUntil?]
  split
  case h_1 unread => simp [unread] at all
  case h_2 paths shown =>
    obtain rfl := Option.some.inj (shown.symm.trans all)
    exact inspectPaths?_eq held met _ _ _

end

section

variable (set : PathSet) {checkedLater checkedNext : Handle → Option Bool}
  {later next : Handle → Bool}

/-- A test of the successors is checked when the test of each of them is. -/
theorem checksSuccessors (ahead : Checks checkedNext next) :
    Checks (fun handle => do (← set.successors? handle).anyM checkedNext)
        (fun handle => (set.successors handle).any next) ∧
      Checks (fun handle => do (← set.successors? handle).allM checkedNext)
        fun handle => (set.successors handle).all next := by
  constructor
  · intro handle
    simp only [successors?_eq]
    exact ahead.any _
  · intro handle
    simp only [successors?_eq]
    exact ahead.all _

/-- The modal operator reads within its paths. -/
theorem checksModal (ahead : Checks checkedNext next) (kind : NodeKind) :
    Checks (fun handle => set.modal? checkedNext handle kind)
      fun handle => set.modal next handle kind := by
  cases kind with
  | place => exact (set.checksSuccessors ahead).1
  | transition => exact (set.checksSuccessors ahead).2

/-- The existential modal operator reads within its paths. -/
theorem checksExistsModal (farther : Checks checkedLater later)
    (ahead : Checks checkedNext next) :
    Checks (set.existsModal? checkedLater checkedNext) (set.existsModal later next) :=
  (set.checksSuccessors (ahead.and (set.checksSuccessors farther).2)).1

/-- The universal modal operator reads within its paths. -/
theorem checksForallModal (farther : Checks checkedLater later)
    (ahead : Checks checkedNext next) :
    Checks (set.forallModal? checkedLater checkedNext) (set.forallModal later next) := by
  intro handle
  have nearby : Checks (fun node => (set.atOffset node 1).allM checkedNext)
      fun node => (set.atOffset node 1).all next := fun _ => ahead.all _
  have beyond : Checks (fun node => (set.atOffset node 2).allM checkedLater)
      fun node => (set.atOffset node 2).all later := fun _ => farther.all _
  rw [forallModal?, atOffset?_eq, atOffset?_eq]
  exact nearby.and beyond handle

/-- The existential next reads within its paths. -/
theorem checksExistsNext (farther : Checks checkedLater later) (kind : NodeKind) :
    Checks (fun handle => set.existsNext? checkedLater handle kind)
      fun handle => set.existsNext later handle kind := by
  have checks := set.checksSuccessors farther
  cases kind with
  | place => exact (set.checksSuccessors checks.2).1
  | transition => exact (set.checksSuccessors checks.1).1

/-- The universal next reads within its paths. -/
theorem checksForallNext (farther : Checks checkedLater later) (kind : NodeKind) :
    Checks (fun handle => set.forallNext? checkedLater handle kind)
      fun handle => set.forallNext later handle kind := by
  cases kind with
  | place =>
      have checks := (set.checksSuccessors (set.checksSuccessors farther.not).2).1
      exact checks.not
  | transition => exact (set.checksSuccessors (set.checksSuccessors farther).2).2

end

end PathSet

end PetriLogic
