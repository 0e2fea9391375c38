import PetriLogic.Proofs.Predicate.Layout

namespace PetriLogic.Predicate

open Grammar Rule

/-- A spelling is named for the loosest operator that stands in it outside of brackets. -/
inductive Tightness where
  | atom
  | conjunction
  | disjunction

/--
The tokens write a predicate by the precedence of its operators.
The members of a conjunction are atoms, and those of a disjunction may be conjunctions as well.
Brackets turn every spelling into an atom, also an atom.
-/
inductive Written : Tightness → Predicate → List String → Prop where
  | single {predicate : Predicate} (isSingle : predicate.isSingle = true) :
      Written .atom predicate predicate.tokens
  | negated {operand : Predicate} {tokens : List String} (inner : Written .atom operand tokens) :
      Written .atom (.not operand) ("!" :: tokens)
  | bracketed {predicate : Predicate} {tokens : List String}
      (inner : Written .disjunction predicate tokens) :
      Written .atom predicate ("(" :: (tokens ++ [")"]))
  | ofAtom {predicate : Predicate} {tokens : List String}
      (tighter : Written .atom predicate tokens) : Written .conjunction predicate tokens
  | ofConjunction {predicate : Predicate} {tokens : List String}
      (tighter : Written .conjunction predicate tokens) : Written .disjunction predicate tokens
  | all {members : List (Predicate × List String)} (several : 2 ≤ members.length)
      (each : ∀ member ∈ members, Written .atom member.1 member.2) :
      Written .conjunction (.all (members.map Prod.fst))
        (["&&"].intercalate (members.map Prod.snd))
  | any {members : List (Predicate × List String)} (several : 2 ≤ members.length)
      (each : ∀ member ∈ members, Written .conjunction member.1 member.2) :
      Written .disjunction (.any (members.map Prod.fst))
        (["||"].intercalate (members.map Prod.snd))

/-- A rendering has any white space around and between its tokens. -/
def Rendering (predicate : Predicate) (source : String) : Prop :=
  ∃ tokens, Written .disjunction predicate tokens ∧ Layout tokens source.toList

/-- The joint stands before each spelling but the first one. -/
theorem intercalate_tokens (joint : String) (first : List String) (others : List (List String)) :
    [joint].intercalate (first :: others) = first ++ others.flatMap (joint :: ·) := by
  induction others generalizing first with
  | nil => simp
  | cons second others inductionHypothesis =>
      rw [List.intercalate_cons_cons, inductionHypothesis, List.flatMap_cons]
      simp

namespace Tightness

/-- The rule that reads the spellings of a tightness, with a bound for the nesting of atoms. -/
def rule (depth : Nat) : Tightness → Rule Predicate
  | .atom => Predicate.atom depth
  | .conjunction => Predicate.conjunction (Predicate.atom depth)
  | .disjunction => Predicate.disjunction (Predicate.atom depth)

/-- A spelling ends where no operator follows that would prolong it. -/
def Ends (rest : List Char) : Tightness → Prop
  | .atom => True
  | .conjunction => after? "&&".toList (skip rest) = none
  | .disjunction => Closes rest

end Tightness

/-- No spelling is longer than the whole. -/
theorem length_le_of_intercalate {joint : String} {spellings : List (List String)}
    {spelling : List String} (member : spelling ∈ spellings) :
    spelling.length ≤ ([joint].intercalate spellings).length := by
  cases spellings with
  | nil => cases member
  | cons first others =>
      rw [intercalate_tokens, List.length_append]
      rcases List.mem_cons.1 member with rfl | later
      · exact Nat.le_add_right _ _
      · have part : (joint :: spelling).Sublist (others.flatMap (joint :: ·)) :=
          List.sublist_flatten_of_mem (List.mem_map_of_mem later)
        have shorter := part.length_le
        rw [List.length_cons] at shorter
        omega

/-- Members that are read one by one are read as a group when no joint follows. -/
theorem result_members {item : Rule Predicate} {joint : String} (ends : List Char → Prop)
    {members : List (Predicate × List String)} {text rest : List Char} (solid : Solid joint)
    (several : 2 ≤ members.length)
    (reads : ∀ member ∈ members, ∀ text rest, ends rest → Laid member.2 text rest →
      item.result (skip text) = some (member.1, rest))
    (between : ∀ tokens text rest, Laid (joint :: tokens) text rest → ends text)
    (final : ends rest) (apart : after? joint.toList (skip rest) = none)
    (laid : Laid ([joint].intercalate (members.map Prod.snd)) text rest) :
    (separated item (joined joint)).result (skip text) = some (members.map Prod.fst, rest) := by
  match members with
  | [] => cases several
  | first :: others =>
      rw [List.map_cons, intercalate_tokens] at laid
      exact result_separated ends solid reads between final apart laid

/-- Two operands or more are gathered in a group. -/
theorem join_of_several {gather : List Predicate → Predicate} {operands : List Predicate}
    (several : 2 ≤ operands.length) : join gather operands = gather operands := by
  match operands with
  | [] | [_] => simp at several
  | _ :: _ :: _ => rfl

/-- What is written is read back by the rule for its tightness. -/
theorem Written.reads {tightness : Tightness} {predicate : Predicate} {tokens : List String}
    (written : Written tightness predicate tokens) {depth : Nat} {text rest : List Char}
    (deep : tokens.length ≤ depth) (ends : tightness.Ends rest) (laid : Laid tokens text rest) :
    (tightness.rule depth).result (skip text) = some (predicate, rest) := by
  -- Each sign of a negation and each bracket costs one level of depth, and it is a token itself.
  induction written generalizing depth text rest with
  | @single predicate isSingle =>
      obtain ⟨token, others, nonempty⟩ := predicate.exists_tokens
      rw [nonempty] at deep
      obtain ⟨depth, rfl⟩ := Nat.exists_eq_add_one_of_ne_zero (Nat.ne_zero_of_lt deep)
      exact result_atom_single isSingle laid
  | @negated operand tokens _ inductionHypothesis =>
      obtain ⟨depth, rfl⟩ := Nat.exists_eq_add_one_of_ne_zero (Nat.ne_zero_of_lt deep)
      obtain ⟨more, front, later⟩ := laid.exists_skip (by decide)
      rw [front]
      exact result_atom_not (inductionHypothesis (Nat.le_of_succ_le_succ deep) trivial later)
  | @bracketed predicate tokens _ inductionHypothesis =>
      obtain ⟨depth, rfl⟩ := Nat.exists_eq_add_one_of_ne_zero (Nat.ne_zero_of_lt deep)
      simp only [List.length_cons, List.length_append, List.length_nil] at deep
      obtain ⟨inside, front, later⟩ := laid.exists_skip (by decide)
      obtain ⟨behind, laidInner, laidLast⟩ := later.split
      obtain ⟨last, closed, done⟩ := laidLast.exists_skip (by decide)
      cases done
      rw [front]
      exact result_atom_bracket
        (inductionHypothesis (by omega) (closes_bracket closed) laidInner) closed
  | ofAtom _ inductionHypothesis =>
      exact result_conjunction_single (inductionHypothesis deep trivial laid) ends
  | ofConjunction _ inductionHypothesis =>
      exact result_disjunction_single (inductionHypothesis deep ends.conjunction laid)
        ends.disjunction
  | @all members several _ inductionHypothesis =>
      have operands := result_members (fun _ => True) (by decide) several
        (fun member inMembers _ _ _ laidMember => inductionHypothesis member inMembers
          (Nat.le_trans (length_le_of_intercalate (List.mem_map_of_mem inMembers)) deep) trivial
          laidMember)
        (fun _ _ _ _ => trivial) trivial ends laid
      rw [Tightness.rule] at operands
      simp only [Tightness.rule, conjunction, result_bind, operands, Option.bind_some, result_pure]
      rw [join_of_several (by simpa using several)]
  | @any members several _ inductionHypothesis =>
      -- A conjunction among the members ends where the next joint stands.
      have between (tokens : List String) (text rest : List Char)
          (laid : Laid ("||" :: tokens) text rest) : after? "&&".toList (skip text) = none := by
        obtain ⟨more, front, _⟩ := laid.exists_skip (by decide)
        rw [front]
        rfl
      have operands := result_members (fun rest => after? "&&".toList (skip rest) = none)
        (by decide) several
        (fun member inMembers _ _ memberEnds laidMember => inductionHypothesis member inMembers
          (Nat.le_trans (length_le_of_intercalate (List.mem_map_of_mem inMembers)) deep)
          memberEnds laidMember)
        between ends.conjunction ends.disjunction laid
      rw [Tightness.rule] at operands
      simp only [Tightness.rule, disjunction, result_bind, operands, Option.bind_some, result_pure]
      rw [join_of_several (by simpa using several)]

/-- Joined spellings have solid tokens if the spellings and the joint do. -/
theorem solid_intercalate {joint : String} (solidJoint : Solid joint)
    {spellings : List (List String)}
    (solid : ∀ spelling ∈ spellings, ∀ token ∈ spelling, Solid token) :
    ∀ token ∈ [joint].intercalate spellings, Solid token := by
  match spellings with
  | [] => simp
  | first :: others =>
      obtain ⟨solidFirst, solidOthers⟩ := List.forall_mem_cons.1 solid
      rw [intercalate_tokens]
      refine List.forall_mem_append.2 ⟨solidFirst, fun token member => ?_⟩
      obtain ⟨spelling, inOthers, found⟩ := List.mem_flatMap.1 member
      rcases List.mem_cons.1 found with rfl | inSpelling
      · exact solidJoint
      · exact solidOthers spelling inOthers token inSpelling

/-- No token of a written predicate begins with a space. -/
theorem Written.solid {tightness : Tightness} {predicate : Predicate} {tokens : List String}
    (written : Written tightness predicate tokens) : ∀ token ∈ tokens, Solid token := by
  induction written with
  | @single predicate => exact solid_tokens predicate
  | negated _ inductionHypothesis => exact List.forall_mem_cons.2 ⟨by decide, inductionHypothesis⟩
  | bracketed _ inductionHypothesis =>
      exact List.forall_mem_cons.2 ⟨by decide, List.forall_mem_append.2
        ⟨inductionHypothesis, by decide⟩⟩
  | ofAtom _ inductionHypothesis => exact inductionHypothesis
  | ofConjunction _ inductionHypothesis => exact inductionHypothesis
  | all _ _ inductionHypothesis =>
      exact solid_intercalate (by decide) (List.forall_mem_map.2 inductionHypothesis)
  | any _ _ inductionHypothesis =>
      exact solid_intercalate (by decide) (List.forall_mem_map.2 inductionHypothesis)

section

variable {first second : Predicate} {firstTokens secondTokens : List String}

/-- Two atoms with the joint between them write their conjunction. -/
theorem Written.all_two (before : Written .atom first firstTokens)
    (after : Written .atom second secondTokens) :
    Written .conjunction (.all [first, second]) (firstTokens ++ "&&" :: secondTokens) := by
  have group := @Written.all [(first, firstTokens), (second, secondTokens)] (Nat.le_refl 2)
    (by simp [before, after])
  simpa [intercalate_tokens] using group

/-- Two conjunctions with the joint between them write their disjunction. -/
theorem Written.any_two (before : Written .conjunction first firstTokens)
    (after : Written .conjunction second secondTokens) :
    Written .disjunction (.any [first, second]) (firstTokens ++ "||" :: secondTokens) := by
  have group := @Written.any [(first, firstTokens), (second, secondTokens)] (Nat.le_refl 2)
    (by simp [before, after])
  simpa [intercalate_tokens] using group

end

/-- Every rendering is accepted, and it is read as the predicate that it renders. -/
theorem read_of_rendering {predicate : Predicate} {source : String}
    (rendering : predicate.Rendering source) : Predicate.read source = .ok predicate := by
  obtain ⟨tokens, written, blanks, blank, laid⟩ := rendering
  have nothing := skip_of_blank blank
  have short := laid.length_le written.solid
  have whole : (disjunction (atom (source.toList.length + 1))).result (skip source.toList) =
      some (predicate, blanks) := written.reads (by omega) (closes_end nothing) laid
  have reads : Predicate.predicate.result source.toList = some (predicate, []) := by
    simp only [result_predicate, result_bind, result_spaces, Option.bind_some, whole, nothing,
      result_pure]
  rw [Predicate.read, Grammar.read_eq_ok reads]
  rfl

/-- A group is written in brackets unless it has fewer than two members. -/
theorem written_collect {neutral : Predicate} {gather : List Predicate → Predicate}
    {name joint : String} {operands : List Predicate}
    (constant : Written .atom neutral [name])
    (gathers : ∀ members : List (Predicate × List String), 2 ≤ members.length →
      (∀ member ∈ members, Written .atom member.1 member.2) →
      Written .disjunction (gather (members.map Prod.fst))
        ([joint].intercalate (members.map Prod.snd)))
    (each : ∀ operand ∈ operands, Written .atom operand.normal operand.tokens) :
    Written .atom (collect neutral gather (operands.map normal))
      (Predicate.bracketed name joint (operands.map tokens)) := by
  match operands with
  | [] => exact constant
  | [operand] => exact each operand List.mem_cons_self
  | first :: second :: others =>
      have members := gathers
        ((first :: second :: others).map fun operand => (operand.normal, operand.tokens))
        (by simp) (List.forall_mem_map.2 each)
      simp only [List.map_cons, List.map_map, Function.comp_def, intercalate_tokens] at members
      exact .bracketed members

mutual

/-- The tokens of a predicate write its normal form. -/
theorem written_tokens (predicate : Predicate) :
    Written .atom predicate.normal predicate.tokens := by
  match predicate with
  | .all operands =>
      rw [normal, tokens, normalEach_eq_map, tokensEach_eq_map]
      refine written_collect (.single rfl) ?_ (written_tokensEach operands)
      exact fun _ several each => .ofConjunction (.all several each)
  | .any operands =>
      rw [normal, tokens, normalEach_eq_map, tokensEach_eq_map]
      refine written_collect (.single rfl) ?_ (written_tokensEach operands)
      exact fun _ several each =>
        .any several fun member inMembers => .ofAtom (each member inMembers)
  | .not operand =>
      exact .negated (.bracketed (.ofConjunction (.ofAtom (written_tokens operand))))
  | .truth | .falsity | .id _ | .tag _ | .reads _ | .writes _ | .erases _ | .kind _
  | .terminal | .initial => exact .single rfl

/-- Each operand is written as an atom by its tokens. -/
theorem written_tokensEach (operands : List Predicate) :
    ∀ operand ∈ operands, Written .atom operand.normal operand.tokens := by
  match operands with
  | [] => simp
  | operand :: operands =>
      exact List.forall_mem_cons.2 ⟨written_tokens operand, written_tokensEach operands⟩

end

/-- Every layout of the tokens renders the normal form. -/
theorem rendering_of_layout {predicate : Predicate} {source : String}
    (layout : Layout predicate.tokens source.toList) : predicate.normal.Rendering source :=
  ⟨predicate.tokens, .ofConjunction (.ofAtom predicate.written_tokens), layout⟩

/-- A predicate is read from every layout of its tokens. -/
theorem read_of_layout {predicate : Predicate} {source : String}
    (layout : Layout predicate.tokens source.toList) :
    Predicate.read source = .ok predicate.normal :=
  read_of_rendering (rendering_of_layout layout)

/--
Whatever brackets and white space the text adds to those that the precedence of the operators
demands, it is read as exactly the predicate that it was written from.
The text that a predicate is displayed as is one of these texts.
-/
theorem precedence_exact {predicate : Predicate} (grouped : predicate.isGrouped = true) :
    predicate.Rendering predicate.display ∧
      ∀ source, predicate.Rendering source → Predicate.read source = .ok predicate := by
  have laid := predicate.laidOut []
  rw [List.append_nil] at laid
  have displayed := rendering_of_layout ⟨[], List.forall_mem_nil _, laid⟩
  rw [normal_of_isGrouped grouped] at displayed
  exact ⟨displayed, fun _ => read_of_rendering⟩

/-- A conjunction keeps the conjunction in it, and a disjunction the disjunction in it. -/
theorem nested_groups_read :
    isGrouped (.any [.all [.terminal, .all [.initial, .not (.not .truth)]],
      .any [.falsity, .kind .app]]) = true ∧
    Predicate.read "\t(terminal)&&((initial && ! !TRUE) ) \n|| (FALSE||(kind== app)) " =
      .ok (.any [.all [.terminal, .all [.initial, .not (.not .truth)]],
        .any [.falsity, .kind .app]]) := by
  have bracketedAtom {predicate : Predicate} {tokens : List String}
      (written : Written .atom predicate tokens) :
      Written .atom predicate ("(" :: (tokens ++ [")"])) :=
    .bracketed (.ofConjunction (.ofAtom written))
  have negations := Written.negated (.negated (@Written.single .truth rfl))
  have inner := Written.all_two (@Written.single .initial rfl) negations
  have twice := bracketedAtom (.bracketed (.ofConjunction inner))
  have conjunction := Written.all_two (bracketedAtom (@Written.single .terminal rfl)) twice
  have compared := bracketedAtom (@Written.single (.kind .app) rfl)
  have disjunction := Written.any_two (.ofAtom (@Written.single .falsity rfl)) (.ofAtom compared)
  have whole := Written.any_two conjunction (.ofAtom (.bracketed disjunction))
  exact ⟨by decide, (precedence_exact (by decide)).2 _
    ⟨_, whole, @layout_of_strip _ _ [' '] (by decide) (by decide)⟩⟩

end PetriLogic.Predicate
