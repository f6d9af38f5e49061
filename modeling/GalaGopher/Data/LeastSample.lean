import Mathlib.Data.List.DropRight
import Mathlib.Order.Bounds.Basic

namespace GalaGopher.Data

/-! The least of a sequence of samples, kept in one cell.

The bottom of the order stands for a cell without a sample, but may be sampled
as well. -/

variable {α : Type} [LinearOrder α] [OrderBot α]

/-- What a sample leaves in the cell. -/
def lower (held sample : α) : α :=
  if held = ⊥ then sample else if held < sample then held else sample

variable {held sample : α} {samples : List α}

theorem lower_of_bot (sample : α) : lower ⊥ sample = sample := if_pos rfl

theorem lower_bot (held : α) : lower held ⊥ = ⊥ := by
  rw [lower]
  split
  case isTrue => rfl
  case isFalse => exact if_neg not_lt_bot

theorem lower_ne_bot (positive : sample ≠ ⊥) (held : α) : lower held sample ≠ ⊥ := by
  rw [lower]
  split
  case isTrue => exact positive
  case isFalse filled =>
      split
      case isTrue => exact filled
      case isFalse => exact positive

theorem lower_of_ne_bot (filled : held ≠ ⊥) (sample : α) : lower held sample = min held sample := by
  rw [lower, if_neg filled, min_def_lt]

/-- A cell that is filled keeps to the minimum as long as the bottom is not
sampled. -/
theorem foldl_lower_isLeast (filled : held ≠ ⊥) (positive : ⊥ ∉ samples) :
    IsLeast {value | value ∈ held :: samples} (samples.foldl lower held) := by
  induction samples generalizing held with
  | nil => exact ⟨List.mem_singleton_self held, fun value member => (List.mem_singleton.mp member).ge⟩
  | cons sample samples ih =>
      rw [List.mem_cons, not_or] at positive
      have least := ih (lower_ne_bot (Ne.symm positive.1) held) positive.2
      rw [List.foldl_cons]
      rw [lower_of_ne_bot filled] at least ⊢
      obtain ⟨member, bound⟩ := least
      have small := bound List.mem_cons_self
      refine ⟨?_, ?_⟩
      · rcases List.mem_cons.mp member with first | later
        · rw [first]
          rcases le_total held sample with order | order
          · rw [min_eq_left order]
            exact List.mem_cons_self
          · rw [min_eq_right order]
            exact List.mem_cons_of_mem _ List.mem_cons_self
        · exact List.mem_cons_of_mem _ (List.mem_cons_of_mem _ later)
      · intro value inside
        rcases List.mem_cons.mp inside with rfl | later
        · exact le_trans small (min_le_left value sample)
        · rcases List.mem_cons.mp later with rfl | rest
          · exact le_trans small (min_le_right held value)
          · exact bound (List.mem_cons_of_mem _ rest)

theorem foldl_lower_ne_bot {last : α} (ended : samples.getLast? = some last) (positive : last ≠ ⊥) (held : α) :
    samples.foldl lower held ≠ ⊥ := by
  obtain ⟨earlier, rfl⟩ := List.getLast?_eq_some_iff.mp ended
  rw [List.foldl_append]
  exact lower_ne_bot positive _

theorem foldl_lower_eq_bot (ended : samples.getLast? = some ⊥) (held : α) : samples.foldl lower held = ⊥ := by
  obtain ⟨earlier, rfl⟩ := List.getLast?_eq_some_iff.mp ended
  rw [List.foldl_append]
  exact lower_bot _

/-- The cell ends with the least sample exactly when a bottom that is sampled
is not followed by more. -/
theorem foldl_lower_iff (samples : List α) :
    (∀ least, IsLeast {value | value ∈ samples} least → samples.foldl lower ⊥ = least) ↔
      ⊥ ∉ samples ∨ samples.getLast? = some ⊥ := by
  constructor
  · intro right
    by_contra neither
    rw [not_or, not_not] at neither
    have least : IsLeast {value | value ∈ samples} ⊥ := ⟨neither.1, fun _ _ => bot_le⟩
    cases ended : samples.getLast? with
    | none =>
        rw [List.getLast?_eq_none_iff.mp ended] at neither
        exact List.not_mem_nil neither.1
    | some last =>
        have positive : last ≠ ⊥ := by
          rintro rfl
          exact neither.2 ended
        exact foldl_lower_ne_bot ended positive ⊥ (right ⊥ least)
  · rintro (positive | ended) least ⟨member, bound⟩
    · cases samples with
      | nil => cases member
      | cons first samples =>
          rw [List.mem_cons, not_or] at positive
          rw [List.foldl_cons, lower_of_bot]
          exact (foldl_lower_isLeast (Ne.symm positive.1) positive.2).unique ⟨member, bound⟩
    · rw [foldl_lower_eq_bot ended]
      exact (le_bot_iff.mp (bound (List.mem_of_getLast? ended))).symm

/-- The cell ends with the least of what came behind the last bottom. -/
theorem foldl_lower_eq_iff (samples : List α) (least : α) :
    samples.foldl lower ⊥ = least ↔
      IsLeast {value | value ∈ samples.rtakeWhile (· ≠ ⊥)} least ∨
        least = ⊥ ∧ samples.rtakeWhile (· ≠ ⊥) = [] := by
  have emptied : (samples.rdropWhile (· ≠ ⊥)).foldl lower ⊥ = ⊥ := by
    by_cases nothing : samples.rdropWhile (· ≠ ⊥) = []
    · rw [nothing, List.foldl_nil]
    · apply foldl_lower_eq_bot
      have last := List.rdropWhile_last_not _ _ nothing
      rw [List.getLast?_eq_some_getLast nothing]
      simpa using last
  have behind : samples.foldl lower ⊥ = (samples.rtakeWhile (· ≠ ⊥)).foldl lower ⊥ := by
    conv_lhs => rw [← List.rdropWhile_append_rtakeWhile (p := (· ≠ ⊥)) (l := samples), List.foldl_append, emptied]
  have positive : ⊥ ∉ samples.rtakeWhile (· ≠ ⊥) := by
    intro member
    simpa using List.mem_rtakeWhile_imp member
  rw [behind]
  cases split : samples.rtakeWhile (· ≠ ⊥) with
  | nil => simp [IsLeast, eq_comm]
  | cons first later =>
      rw [split, List.mem_cons, not_or] at positive
      rw [List.foldl_cons, lower_of_bot]
      have filled := foldl_lower_isLeast (Ne.symm positive.1) positive.2
      constructor
      · rintro rfl
        exact .inl filled
      · rintro (other | ⟨-, absurd⟩)
        · exact filled.unique other
        · cases absurd

end GalaGopher.Data
