import PetriLogic.Proofs.Formula.Canonical
import PetriLogic.Proofs.Path.Limit
import PetriLogic.Proofs.Net.Operations
import PetriLogic.Verification.Report

namespace PetriLogic

/-- The start is a node of a kind, and its paths in the chosen scope are within the limit. -/
structure Config.Ready (config : Config) (net : Net) (start : String) (handle : Handle)
    (kind : NodeKind) (set : PathSet) : Prop where
  found : net.find? start = some handle
  ofKind : net.kind? handle = some kind
  paths : net.pathSet ⟨none, config.scope⟩ handle = .ok set
  within : ∀ limit, config.maxPaths = some limit → set.paths.length ≤ limit

namespace Net

/-- The paths within the limit are those without a limit. -/
theorem pathSet_ok_iff {net : Net} {handle : Handle} (known : handle < net.size)
    {enumeration : Enumeration} {set : PathSet} :
    net.pathSet enumeration handle = .ok set ↔
      net.pathSet ⟨none, enumeration.scope⟩ handle = .ok set ∧
        ∀ limit, enumeration.maxPaths = some limit → set.paths.length ≤ limit := by
  rw [pathSet_eq known, pathSet_eq known, limited_none]
  cases enumeration.maxPaths with
  | none => simp [limited_none]
  | some limit =>
      rw [limited_some]
      constructor
      · intro within
        split at within
        · cases within
        · rename_i enough
          cases within
          exact ⟨rfl, fun other same => Option.some.inj same ▸ Nat.le_of_not_lt enough⟩
      · rintro ⟨same, within⟩
        cases same
        exact if_neg (Nat.not_lt.2 (within limit rfl))

/-- The paths of a known node are refused exactly when the limit admits fewer of them. -/
theorem pathSet_error_iff {net : Net} {handle : Handle} (known : handle < net.size)
    {enumeration : Enumeration} {fault : Fault} :
    net.pathSet enumeration handle = .error fault ↔ ∃ limit set,
      net.pathSet ⟨none, enumeration.scope⟩ handle = .ok set ∧
        enumeration.maxPaths = some limit ∧ limit < set.paths.length ∧
          fault = .pathLimit limit := by
  rw [pathSet_eq known, pathSet_eq known, limited_none]
  cases enumeration.maxPaths with
  | none => simp [limited_none]
  | some limit =>
      rw [limited_some]
      constructor
      · intro fails
        split at fails
        · rename_i exceeded
          cases fails
          exact ⟨limit, _, rfl, rfl, exceeded, rfl⟩
        · cases fails
      · rintro ⟨_, set, same, sameLimit, exceeded, rfl⟩
        cases same
        cases sameLimit
        exact if_pos exceeded

end Net

/-- The verifier asks for formulas on the kind of the start. -/
theorem Config.Ready.kind_eq {config : Config} {net : Net} {start : String} {handle : Handle}
    {kind : NodeKind} {set : PathSet} (ready : config.Ready net start handle kind set) :
    (Verifier.mk handle set).kind = kind := by
  have searched := ready.paths
  rw [Net.pathSet_eq (Net.kindInRange ready.ofKind), Net.limited_none] at searched
  cases searched
  rw [Verifier.kind, ready.ofKind]
  rfl

namespace Verifier

/-- A verifier is set up exactly when its start and its paths are ready. -/
theorem ofNet_ok_iff {net : Net} (consistent : net.Consistent) {config : Config} {start : String}
    {verifier : Verifier} :
    ofNet net start config.enumeration = .ok verifier ↔
      ∃ kind, config.Ready net start verifier.start kind verifier.paths := by
  rw [ofNet, bind_ok_iff]
  constructor
  · rintro ⟨handle, found, rest⟩
    obtain ⟨set, searched, same⟩ := bind_ok_iff.1 rest
    cases same
    have known := consistent.lt_size_of_find? (Net.lookup_ok_iff.1 found)
    obtain ⟨kind, ofKind⟩ := Option.isSome_iff_exists.1 (Net.kind?_isSome_iff.2 known)
    obtain ⟨paths, within⟩ := (Net.pathSet_ok_iff known).1 searched
    exact ⟨kind, Net.lookup_ok_iff.1 found, ofKind, paths, within⟩
  · rintro ⟨kind, found, _, paths, within⟩
    have known := consistent.lt_size_of_find? found
    exact ⟨verifier.start, Net.lookup_ok_iff.2 found, bind_ok_iff.2
      ⟨verifier.paths, (Net.pathSet_ok_iff known).2 ⟨paths, within⟩, rfl⟩⟩

/-- A verifier is refused for an unknown start, or for more paths than the limit admits. -/
theorem ofNet_error_iff {net : Net} (consistent : net.Consistent) {enumeration : Enumeration}
    {start : String} {fault : Fault} :
    ofNet net start enumeration = .error fault ↔
      (net.find? start = none ∧ fault = .unknownNode start) ∨
      ∃ handle limit set, net.find? start = some handle ∧
        net.pathSet ⟨none, enumeration.scope⟩ handle = .ok set ∧
          enumeration.maxPaths = some limit ∧ limit < set.paths.length ∧
            fault = .pathLimit limit := by
  rw [ofNet, bind_error_iff, Net.lookup_error_iff]
  apply or_congr_right
  constructor
  · rintro ⟨handle, found, fails⟩
    have isFound := Net.lookup_ok_iff.1 found
    have known := consistent.lt_size_of_find? isFound
    rcases bind_error_iff.1 fails with exceeded | ⟨_, _, never⟩
    · obtain ⟨limit, set, counted⟩ := (Net.pathSet_error_iff known).1 exceeded
      exact ⟨handle, limit, set, isFound, counted⟩
    · cases never
  · rintro ⟨handle, limit, set, found, counted⟩
    have known := consistent.lt_size_of_find? found
    have exceeded := (Net.pathSet_error_iff known).2 ⟨limit, set, counted⟩
    exact ⟨handle, Net.lookup_ok_iff.2 found, bind_error_iff.2 (.inl exceeded)⟩

end Verifier

namespace Report

/-- The verdict is about the formula of the entry, which is written anew and checked at a node. -/
def Answers (set : PathSet) (handle : Handle) (kind : NodeKind) (entry : FormulaFile.Entry)
    (verdict : Verdict) : Prop :=
  ∃ formula : Formula kind, Formula.read kind entry.formula = .ok formula ∧
    verdict = ⟨entry.name, formula.display, formula.holds set handle⟩

/-- The reasons for which a run fails, each of them when those before it do not apply. -/
inductive Refused (config : Config) (net : Net) (start : String)
    (entries : List FormulaFile.Entry) : RunFault → Prop where
  | start (unknown : net.find? start = none) :
      Refused config net start entries (.preparing start (.unknownNode start))
  | limit {handle : Handle} {limit : Nat} {set : PathSet} (found : net.find? start = some handle)
      (paths : net.pathSet ⟨none, config.scope⟩ handle = .ok set)
      (limited : config.maxPaths = some limit) (exceeded : limit < set.paths.length) :
      Refused config net start entries (.preparing start (.pathLimit limit))
  | formula {handle : Handle} {kind : NodeKind} {set : PathSet} {entry : FormulaFile.Entry}
      {before after : List FormulaFile.Entry} {fault : Fault}
      (ready : config.Ready net start handle kind set) (split : entries = before ++ entry :: after)
      (readable : ∀ earlier ∈ before, ∃ formula, Formula.read kind earlier.formula = .ok formula)
      (unreadable : Formula.read kind entry.formula = .error fault) :
      Refused config net start entries (.formula entry.name fault)

section

variable {verifier : Verifier} {kind : NodeKind} {entry : FormulaFile.Entry}

/-- An entry is read when its formula is accepted for the kind of the start. -/
theorem readEntry_ok_iff (ofKind : verifier.kind = kind) {named : NamedProperty} :
    readEntry verifier entry = .ok named ↔ ∃ formula : Formula kind,
      Formula.read kind entry.formula = .ok formula ∧ named = ⟨entry.name, kind, formula⟩ := by
  rw [readEntry, Verifier.read, Property.read, ofKind]
  cases Formula.read kind entry.formula with
  | error fault => simp [bind, Except.bind, Except.mapError]
  | ok formula => simp [bind, Except.bind, Except.mapError, pure, Except.pure, eq_comm]

/-- An entry is refused when its formula is, and the fault names the entry. -/
theorem readEntry_error_iff (ofKind : verifier.kind = kind) {fault : RunFault} :
    readEntry verifier entry = .error fault ↔ ∃ problem,
      Formula.read kind entry.formula = .error problem ∧
        fault = .formula entry.name problem := by
  rw [readEntry, Verifier.read, Property.read, ofKind]
  cases Formula.read kind entry.formula with
  | error fault => simp [bind, Except.bind, Except.mapError, eq_comm]
  | ok formula => simp [bind, Except.bind, Except.mapError, pure, Except.pure]

/-- Some property is read from an entry exactly when its formula is accepted. -/
theorem exists_readEntry_iff (ofKind : verifier.kind = kind) :
    (∃ named, readEntry verifier entry = .ok named) ↔
      ∃ formula, Formula.read kind entry.formula = .ok formula := by
  simp only [readEntry_ok_iff ofKind]
  constructor
  · rintro ⟨_, formula, read, _⟩
    exact ⟨formula, read⟩
  · rintro ⟨formula, read⟩
    exact ⟨_, formula, read, rfl⟩

/-- An entry is answered when it is read and its formula is checked. -/
theorem answers_iff (ofKind : verifier.kind = kind) {verdict : Verdict} :
    Answers verifier.paths verifier.start kind entry verdict ↔
      ∃ named, readEntry verifier entry = .ok named ∧ verifier.verdict named = verdict := by
  simp only [readEntry_ok_iff ofKind]
  constructor
  · rintro ⟨formula, read, rfl⟩
    refine ⟨_, ⟨formula, read, rfl⟩, ?_⟩
    rw [Verifier.verdict, Verifier.checkIffHolds]
    rfl
  · rintro ⟨_, ⟨formula, read, rfl⟩, rfl⟩
    refine ⟨formula, read, ?_⟩
    rw [Verifier.verdict, Verifier.checkIffHolds]
    rfl

/-- Verdicts answer the entries in their order when they check what is read from them. -/
theorem forall₂_answers_iff (ofKind : verifier.kind = kind) {entries : List FormulaFile.Entry}
    {verdicts : List Verdict} :
    List.Forall₂ (Answers verifier.paths verifier.start kind) entries verdicts ↔
      ∃ named, entries.mapM (readEntry verifier) = .ok named ∧
        verifier.checkAll named = verdicts := by
  simp only [mapM_ok_iff, Verifier.checkAll]
  induction entries generalizing verdicts with
  | nil => simp [eq_comm]
  | cons entry entries inductionHypothesis =>
      simp only [List.forall₂_cons_left_iff, inductionHypothesis, answers_iff ofKind]
      constructor
      · rintro ⟨_, _, ⟨named, read, rfl⟩, ⟨others, later, rfl⟩, rfl⟩
        exact ⟨named :: others, ⟨named, others, read, later, rfl⟩, rfl⟩
      · rintro ⟨_, ⟨named, others, read, later, rfl⟩, rfl⟩
        exact ⟨_, _, ⟨named, read, rfl⟩, ⟨others, later, rfl⟩, rfl⟩

end

section

variable {config : Config} {net : Net} {start : String} {requests : List FormulaFile.Entry}

/--
A run fails exactly for the first reason that applies.
These are an unknown start, too many paths, and the first entry whose formula is not accepted.
-/
theorem run_error_iff (consistent : net.Consistent) {runId : String} {fault : RunFault} :
    run runId config net start requests = .error fault ↔
      Refused config net start requests fault := by
  rw [run, bind_error_iff]
  constructor
  · rintro (fails | ⟨verifier, prepared, fails⟩)
    · obtain ⟨reason, refused, rfl⟩ := mapError_error_iff.1 fails
      rcases (Verifier.ofNet_error_iff consistent).1 refused with ⟨unknown, rfl⟩ | tooMany
      · exact .start unknown
      · obtain ⟨handle, limit, set, found, paths, limited, exceeded, rfl⟩ := tooMany
        exact .limit found paths limited exceeded
    · obtain ⟨kind, ready⟩ := (Verifier.ofNet_ok_iff consistent).1 (mapError_ok_iff.1 prepared)
      rcases bind_error_iff.1 fails with stopped | ⟨_, _, never⟩
      · obtain ⟨before, entry, after, split, readable, fails⟩ := mapM_error_iff.1 stopped
        obtain ⟨problem, unreadable, rfl⟩ := (readEntry_error_iff ready.kind_eq).1 fails
        exact .formula ready split (fun earlier member =>
          (exists_readEntry_iff ready.kind_eq).1 (readable earlier member)) unreadable
      · cases never
  · intro refused
    have unprepared := @Verifier.ofNet_error_iff net consistent config.enumeration start
    cases refused with
    | start unknown =>
        have reason := unprepared.2 (.inl ⟨unknown, rfl⟩)
        exact .inl (mapError_error_iff.2 ⟨_, reason, rfl⟩)
    | limit found paths limited exceeded =>
        have reason := unprepared.2 (.inr ⟨_, _, _, found, paths, limited, exceeded, rfl⟩)
        exact .inl (mapError_error_iff.2 ⟨_, reason, rfl⟩)
    | @formula handle kind set entry before after fault ready split readable unreadable =>
        have prepared : Verifier.ofNet net start config.enumeration = .ok ⟨handle, set⟩ :=
          (Verifier.ofNet_ok_iff consistent).2 ⟨kind, ready⟩
        have stopped := mapM_error_iff.2 ⟨before, entry, after, split,
          fun earlier member => (exists_readEntry_iff ready.kind_eq).2 (readable earlier member),
          (readEntry_error_iff ready.kind_eq).2 ⟨fault, unreadable, rfl⟩⟩
        exact .inr ⟨_, mapError_ok_iff.2 prepared, bind_error_iff.2 (.inl stopped)⟩

/-- A run succeeds exactly when it is ready and its verdicts answer the requests. -/
theorem run_ok_iff (consistent : net.Consistent) {runId : String} {report : Report} :
    run runId config net start requests = .ok report ↔ ∃ handle kind set verdicts,
      config.Ready net start handle kind set ∧
        List.Forall₂ (Answers set handle kind) requests verdicts ∧
          report = ⟨runId, net.id, start, set.paths.length, verdicts⟩ := by
  rw [run, bind_ok_iff]
  constructor
  · rintro ⟨verifier, prepared, rest⟩
    obtain ⟨kind, ready⟩ := (Verifier.ofNet_ok_iff consistent).1 (mapError_ok_iff.1 prepared)
    obtain ⟨named, read, same⟩ := bind_ok_iff.1 rest
    have answers := (forall₂_answers_iff ready.kind_eq).2 ⟨named, read, rfl⟩
    exact ⟨verifier.start, kind, verifier.paths, _, ready, answers, (Except.ok.inj same).symm⟩
  · rintro ⟨handle, kind, set, verdicts, ready, answers, rfl⟩
    obtain ⟨named, read, rfl⟩ := (forall₂_answers_iff ready.kind_eq).1 answers
    have prepared : Verifier.ofNet net start config.enumeration = .ok ⟨handle, set⟩ :=
      (Verifier.ofNet_ok_iff consistent).2 ⟨kind, ready⟩
    exact ⟨_, mapError_ok_iff.2 prepared, bind_ok_iff.2 ⟨named, read, rfl⟩⟩

end

/-- These entries ask for what a report answers. -/
def entries (report : Report) : List FormulaFile.Entry :=
  report.verdicts.map fun verdict => ⟨verdict.name, verdict.formula⟩

/-- A verdict shows its formula in a form that is read back. -/
theorem Answers.again {set : PathSet} {handle : Handle} {kind : NodeKind}
    {entry : FormulaFile.Entry} {verdict : Verdict}
    (answers : Answers set handle kind entry verdict) :
    Answers set handle kind ⟨verdict.name, verdict.formula⟩ verdict := by
  obtain ⟨formula, read, rfl⟩ := answers
  exact ⟨formula, Formula.read_display (Formula.accepted read), rfl⟩

/-- Verdicts answer the formulas that they show. -/
theorem forall₂_again {set : PathSet} {handle : Handle} {kind : NodeKind}
    {requests : List FormulaFile.Entry} {verdicts : List Verdict}
    (answers : List.Forall₂ (Answers set handle kind) requests verdicts) :
    List.Forall₂ (Answers set handle kind)
      (verdicts.map fun verdict => ⟨verdict.name, verdict.formula⟩) verdicts := by
  induction answers with
  | nil => exact .nil
  | cons first _ inductionHypothesis => exact .cons first.again inductionHypothesis

/--
A run fails for an unknown start, for too many paths or for the first formula that cannot be
read, in this order, and for nothing else. Otherwise every entry is answered in its place. The
verdicts of a report can be asked for again by their names and formulas.
-/
theorem run_exact {net : Net} (reachable : net.Reachable) (runId : String) (config : Config)
    (start : String) (requests : List FormulaFile.Entry) :
    (∀ fault, run runId config net start requests = .error fault ↔
      Refused config net start requests fault) ∧
    (∀ report, run runId config net start requests = .ok report ↔
      ∃ handle kind set verdicts, config.Ready net start handle kind set ∧
        List.Forall₂ (Answers set handle kind) requests verdicts ∧
          report = ⟨runId, net.id, start, set.paths.length, verdicts⟩) ∧
    ∀ report (otherId : String), run runId config net start requests = .ok report →
      run otherId config net start report.entries = .ok { report with runId := otherId } := by
  have consistent := reachable.consistent
  refine ⟨fun fault => run_error_iff consistent, fun report => run_ok_iff consistent, ?_⟩
  intro report otherId succeeds
  obtain ⟨handle, kind, set, verdicts, ready, answers, rfl⟩ := (run_ok_iff consistent).1 succeeds
  exact (run_ok_iff consistent).2 ⟨handle, kind, set, verdicts, ready, forall₂_again answers, rfl⟩

/-- One formula that is true of the ring and one that is not, neither written as displayed. -/
def ringRequests : List FormulaFile.Entry :=
  [⟨"leaves", "POS( NF((id==\"C\")) )"⟩, ⟨"ends", " FORALL_EVENTUALLY(NF(terminal))"⟩]

/-- The report on these requests. -/
def ringReport : Report :=
  ⟨"first", "ring", "A", 10,
    [⟨"leaves", "POS(NF(id == \"C\"))", true⟩, ⟨"ends", "EV(NF(terminal))", false⟩]⟩

/-- The formulas of the report are written in another way, and they have the same verdicts. -/
theorem ringWithExit_rerun : Net.ringWithExit.Reachable ∧
    run "first" .standard Net.ringWithExit "A" ringRequests = .ok ringReport ∧
    run "second" .standard Net.ringWithExit "A" ringReport.entries =
      .ok { ringReport with runId := "second" } ∧
    run "first" .standard Net.ringWithExit "D" ringRequests =
      .error (.preparing "D" (.unknownNode "D")) := by
  have reachable := Net.ringWithExit_built.reachable
  have succeeds : run "first" .standard Net.ringWithExit "A" ringRequests = .ok ringReport := by
    decide +kernel
  obtain ⟨_, _, again⟩ := run_exact reachable "first" .standard "A" ringRequests
  obtain ⟨refused, _⟩ := run_exact reachable "first" .standard "D" ringRequests
  exact ⟨reachable, succeeds, again _ "second" succeeds, (refused _).2 (.start rfl)⟩

end Report

end PetriLogic
