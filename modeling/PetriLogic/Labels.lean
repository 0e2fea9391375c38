/-
This file gives finite sets of labels, which are listed in ascending order.
-/

namespace PetriLogic

/-- Each label is listed once, as the order is strict. -/
structure Labels where
  items : List String
  ascending : items.Pairwise (· < ·)
deriving DecidableEq

namespace Labels

/-- A label is put where the order wants it, unless it is there already. -/
def place (label : String) : List String → List String
  | [] => [label]
  | first :: rest =>
      if label < first then label :: first :: rest
      else if first < label then first :: place label rest
      else first :: rest

/-- Placing a label adds this label only. -/
theorem mem_place {label other : String} {items : List String} :
    other ∈ place label items → other = label ∨ other ∈ items := by
  induction items with
  | nil => simp [place]
  | cons first rest inductionHypothesis =>
      simp only [place]
      split
      · simp
      · split
        · intro member
          rcases List.mem_cons.1 member with same | later
          · simp [same]
          · rcases inductionHypothesis later with same | inRest
            · exact .inl same
            · exact .inr (List.mem_cons_of_mem _ inRest)
        · exact .inr

/-- Placing a label keeps the labels in ascending order. -/
theorem place_ascending {label : String} {items : List String}
    (ascending : items.Pairwise (· < ·)) : (place label items).Pairwise (· < ·) := by
  induction items with
  | nil => simp [place]
  | cons first rest inductionHypothesis =>
      obtain ⟨below, restAscending⟩ := List.pairwise_cons.1 ascending
      simp only [place]
      split
      · rename_i before
        refine List.pairwise_cons.2 ⟨fun other member => ?_, ascending⟩
        rcases List.mem_cons.1 member with same | later
        · exact same ▸ before
        · exact String.lt_trans before (below other later)
      · split
        · rename_i after
          refine List.pairwise_cons.2 ⟨fun other member => ?_, inductionHypothesis restAscending⟩
          rcases mem_place member with same | later
          · exact same ▸ after
          · exact below other later
        · exact ascending

def empty : Labels := ⟨[], .nil⟩

/-- A set of labels with one more label. -/
def insert (labels : Labels) (label : String) : Labels :=
  ⟨place label labels.items, place_ascending labels.ascending⟩

/-- The set of the listed labels. -/
def ofList (items : List String) : Labels := items.foldl insert empty

def contains (labels : Labels) (label : String) : Bool := labels.items.contains label

instance : Inhabited Labels := ⟨empty⟩

end Labels

end PetriLogic
