import Mathlib.Data.List.Basic

namespace GalaGopher.Data

/-! What is left in a place that some steps of a run write and others leave
alone: what the last of the writing ones wrote. -/

variable {Step State Value : Type}

def lastWrite (writes : Step → Option Value) (steps : List Step) : Option Value :=
  (steps.filterMap writes).getLast?

theorem lastWrite_cons (writes : Step → Option Value) (first : Step) (rest : List Step) :
    lastWrite writes (first :: rest) = (lastWrite writes rest).or (writes first) := by
  rw [lastWrite, List.filterMap_cons]
  cases written : writes first with
  | none => exact (Option.or_none).symm
  | some value =>
      rw [List.getLast?_cons, lastWrite]
      cases (rest.filterMap writes).getLast? <;> rfl

/-- Where a step either writes a place or keeps it, a run leaves the last write. -/
theorem lastWrite_foldl_of {step : State → Step → State} {place : State → Value} {writes : Step → Option Value}
    {holds : State → Prop} (kept : ∀ state action, holds state → holds (step state action))
    (one : ∀ state action, holds state → place (step state action) = (writes action).getD (place state))
    (steps : List Step) (state : State) (start : holds state) :
    place (steps.foldl step state) = (lastWrite writes steps).getD (place state) := by
  induction steps generalizing state with
  | nil => rfl
  | cons first rest ih =>
      rw [List.foldl_cons, ih _ (kept state first start), one state first start, lastWrite_cons]
      cases lastWrite writes rest <;> rfl

theorem lastWrite_foldl {step : State → Step → State} {place : State → Value} {writes : Step → Option Value}
    (one : ∀ state action, place (step state action) = (writes action).getD (place state))
    (steps : List Step) (state : State) :
    place (steps.foldl step state) = (lastWrite writes steps).getD (place state) :=
  @lastWrite_foldl_of _ _ _ step place writes (fun _ => True) (fun _ _ _ => trivial)
    (fun state action _ => one state action) steps state trivial

theorem exists_of_lastWrite {writes : Step → Option Value} {steps : List Step} {value : Value}
    (last : lastWrite writes steps = some value) : ∃ action ∈ steps, writes action = some value :=
  List.mem_filterMap.mp (List.mem_of_getLast? last)

theorem lastWrite_append (writes : Step → Option Value) (earlier later : List Step) :
    lastWrite writes (earlier ++ later) = (lastWrite writes later).or (lastWrite writes earlier) := by
  rw [lastWrite, List.filterMap_append, List.getLast?_append, lastWrite, lastWrite]

theorem lastWrite_eq_none_iff {writes : Step → Option Value} {steps : List Step} :
    lastWrite writes steps = none ↔ ∀ action ∈ steps, writes action = none := by
  rw [lastWrite, List.getLast?_eq_none_iff, List.filterMap_eq_nil_iff]

theorem lastWrite_eq_some_iff {writes : Step → Option Value} {steps : List Step} {value : Value} :
    lastWrite writes steps = some value ↔
      ∃ before action after, steps = before ++ action :: after ∧ writes action = some value ∧
        ∀ other ∈ after, writes other = none := by
  constructor
  case mp =>
      intro last
      induction steps with
      | nil => cases last
      | cons first rest ih =>
          rw [lastWrite_cons, Option.or_eq_some_iff] at last
          rcases last with later | ⟨silent, here⟩
          · obtain ⟨before, action, after, rfl, written, behind⟩ := ih later
            exact ⟨first :: before, action, after, rfl, written, behind⟩
          · exact ⟨[], first, rest, rfl, here, lastWrite_eq_none_iff.mp silent⟩
  case mpr =>
      rintro ⟨before, action, after, rfl, written, behind⟩
      rw [lastWrite_append, lastWrite_cons, lastWrite_eq_none_iff.mpr behind, written]
      rfl

theorem lastWrite_map {Other : Type} (writes : Step → Option Value) (change : Value → Other) (steps : List Step) :
    lastWrite (fun action => (writes action).map change) steps = (lastWrite writes steps).map change := by
  rw [lastWrite, ← List.map_filterMap, List.getLast?_map, lastWrite]

end GalaGopher.Data
