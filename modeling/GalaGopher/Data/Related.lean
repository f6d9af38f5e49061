import Mathlib.Data.List.Basic
import Mathlib.Data.List.Forall2

namespace GalaGopher.Data

section Related

variable {σ γ : Type} {related : σ → γ → Prop} {picks : σ → Bool} {chooses : γ → Bool} {left : List σ} {right : List γ}

theorem getElem?_related {element : σ} (each : List.Forall₂ related left right) {place : Nat}
    (found : left[place]? = some element) : ∃ other, right[place]? = some other ∧ related element other := by
  induction each generalizing place with
  | nil => cases found
  | @cons first other _ _ here _ ih =>
      cases place with
      | zero =>
          cases found
          exact ⟨other, rfl, here⟩
      | succ place => exact ih found

theorem findIdxs_related (each : List.Forall₂ related left right)
    (alike : ∀ element other, related element other → picks element = chooses other) (place : Nat) :
    left.findIdxs picks place = right.findIdxs chooses place := by
  induction each generalizing place with
  | nil => rfl
  | cons here _ ih => rw [List.findIdxs_cons, List.findIdxs_cons, alike _ _ here, ih]

/-- The last that is picked on either side. -/
theorem getLast?_filter_related (each : List.Forall₂ related left right)
    (alike : ∀ element other, related element other → picks element = chooses other) :
    Option.Rel related (left.filter picks).getLast? (right.filter chooses).getLast? := by
  have filtered : List.Forall₂ related (left.filter picks) (right.filter chooses) :=
    List.rel_filter (fun element other here => Bool.eq_iff_iff.mp (alike element other here)) each
  have reversed := List.rel_reverse filtered
  rw [List.getLast?_eq_head?_reverse, List.getLast?_eq_head?_reverse]
  generalize (left.filter picks).reverse = left, (right.filter chooses).reverse = right at reversed
  cases reversed with
  | nil => exact .none
  | cons here _ => exact .some here

end Related

section Modify

variable {π : Type} {picks : π → Bool} {elements : List π} {element : π} {place : Nat}

theorem getElem?_modify_some (found : elements[place]? = some element) (other : Nat) (change : π → π) :
    (elements.modify other change)[place]? = some (if other = place then change element else element) := by
  rw [List.getElem?_modify, found]
  rfl

/-- The first that is picked, where it is the only one. -/
theorem modify_findIdx? (change : π → π)
    (alone : elements.Pairwise fun first second => picks first = true → picks second = false) :
    (match elements.findIdx? picks with
      | none => elements
      | some place => elements.modify place change) =
        elements.map fun element => if picks element then change element else element := by
  induction elements with
  | nil => rfl
  | cons element rest ih =>
      rw [List.pairwise_cons] at alone
      rw [List.findIdx?_cons, List.map_cons]
      by_cases picked : picks element = true
      · have others : (rest.map fun element => if picks element then change element else element) = rest := by
          refine (List.map_congr_left fun other member => ?_).trans (List.map_id' rest)
          rw [alone.1 other member picked]
          rfl
        rw [if_pos picked, if_pos picked, others]
        rfl
      · rw [if_neg picked, if_neg picked, ← ih alone.2]
        cases rest.findIdx? picks <;> rfl

end Modify

end GalaGopher.Data
