import Mathlib.Data.List.Forall2
import Mathlib.Data.List.Nodup
import Mathlib.Data.List.Pairwise

namespace GalaGopher.Data.KeyedList

/-! Insertion-ordered maps, represented by the list of their values in
insertion order.  Keys are read off the values. -/

variable {α κ : Type} [DecidableEq κ] (key : α → κ)

/-- No two values share a key. -/
def Distinct (values : List α) : Prop :=
  (values.map key).Nodup

def find? (wanted : κ) (values : List α) : Option α :=
  values.find? fun value => key value = wanted

/-- Unlink the value found under a key. -/
def remove (wanted : κ) (values : List α) : List α :=
  values.eraseP fun value => key value = wanted

/-- Replace by unlinking the old value and appending the new one. -/
def put (value : α) (values : List α) : List α :=
  remove key (key value) values ++ [value]

variable {key} {wanted : κ} {value found : α} {values kept : List α}

omit [DecidableEq κ] in
theorem Distinct.sublist (distinct : Distinct key values) (part : kept.Sublist values) :
    Distinct key kept :=
  List.Nodup.sublist (part.map key) distinct

theorem find?_eq_none_iff : find? key wanted values = none ↔ wanted ∉ values.map key := by
  simp [find?, List.find?_eq_none]

theorem find?_some (present : find? key wanted values = some found) :
    found ∈ values ∧ key found = wanted :=
  ⟨List.mem_of_find?_eq_some present, by simpa using List.find?_some present⟩

theorem remove_sublist (key : α → κ) (wanted : κ) (values : List α) :
    (remove key wanted values).Sublist values :=
  List.eraseP_sublist

theorem remove_of_absent (absent : wanted ∉ values.map key) : remove key wanted values = values := by
  apply List.eraseP_of_forall_not
  intro value member same
  exact absent (List.mem_map.mpr ⟨value, member, by simpa using same⟩)

/-- Under distinct keys, unlinking the value found under a key drops exactly
the values with that key. -/
theorem remove_eq_filter (distinct : Distinct key values) :
    remove key wanted values = values.filter fun value => key value ≠ wanted := by
  induction values with
  | nil => rfl
  | cons head tail ih =>
      obtain ⟨fresh, tailDistinct⟩ := List.nodup_cons.mp distinct
      by_cases same : key head = wanted
      · have others : ∀ value ∈ tail, key value ≠ wanted := by
          intro value member equal
          exact fresh (List.mem_map.mpr ⟨value, member, equal.trans same.symm⟩)
        simp only [remove, List.eraseP_cons, same, decide_true, cond_true, List.filter_cons,
          ne_eq, not_true_eq_false, decide_false, Bool.false_eq_true, if_false]
        exact (List.filter_eq_self.mpr (by simpa using others)).symm
      · have rest := ih tailDistinct
        simp only [remove] at rest
        simp [remove, same, rest]

theorem not_mem_remove (distinct : Distinct key values) (wanted : κ) :
    wanted ∉ (remove key wanted values).map key := by
  rw [remove_eq_filter distinct]
  simp

theorem remove_length (present : wanted ∈ values.map key) :
    (remove key wanted values).length + 1 = values.length := by
  obtain ⟨value, member, same⟩ := List.mem_map.mp present
  have satisfied : decide (key value = wanted) = true := by simpa using same
  have shorter := List.length_eraseP_of_mem (p := fun value => decide (key value = wanted)) member satisfied
  have nonempty := List.length_pos_of_mem member
  rw [remove, shorter]
  omega

theorem put_distinct (distinct : Distinct key values) : Distinct key (put key value values) := by
  have fresh := not_mem_remove distinct (key value)
  have rest := distinct.sublist (remove_sublist key (key value) values)
  simp only [Distinct, put, List.map_append, List.map_cons, List.map_nil]
  exact List.nodup_append.mpr ⟨rest, by simp, by
    intro left leftMember right rightMember same
    subst same
    simp only [List.mem_singleton] at rightMember
    exact fresh (rightMember ▸ leftMember)⟩

/-- A put leaves one value under its key, the new one. -/
theorem put_filter_same (distinct : Distinct key values) (value : α) :
    (put key value values).filter (fun other => key other = key value) = [value] := by
  rw [put, remove_eq_filter distinct]
  simp [List.filter_filter]

/-- A put touches no value under another key, nor their order. -/
theorem put_filter_other (distinct : Distinct key values) (value : α) :
    (put key value values).filter (fun other => key other ≠ key value) =
      values.filter fun other => key other ≠ key value := by
  rw [put, remove_eq_filter distinct]
  simp [List.filter_filter]

/-- Appending what no earlier value exceeds keeps insertion order sorted. -/
theorem put_pairwise {order : α → α → Prop} (sorted : values.Pairwise order)
    (greatest : ∀ other ∈ values, order other value) : (put key value values).Pairwise order := by
  refine List.pairwise_append.mpr ⟨sorted.sublist (remove_sublist key (key value) values), by simp, ?_⟩
  intro other member last lastMember
  simp only [List.mem_singleton] at lastMember
  subst last
  exact greatest other ((remove_sublist key (key value) values).mem member)

variable {β : Type} {related : α → β → Prop} {otherKey : β → κ} {others : List β} {other : β}

theorem forall₂_remove (same : ∀ value other, related value other → key value = otherKey other)
    (each : List.Forall₂ related values others) (wanted : κ) :
    List.Forall₂ related (remove key wanted values) (remove otherKey wanted others) := by
  induction each with
  | nil => exact .nil
  | @cons value other values others here later ih =>
      by_cases found : otherKey other = wanted
      · have first : key value = wanted := (same value other here).trans found
        rw [remove, remove, List.eraseP_cons_of_pos (by simpa using first), List.eraseP_cons_of_pos (by simpa using found)]
        exact later
      · have first : key value ≠ wanted := fun equal => found ((same value other here).symm.trans equal)
        rw [remove, remove, List.eraseP_cons_of_neg (by simpa using first), List.eraseP_cons_of_neg (by simpa using found)]
        exact .cons here ih

theorem forall₂_put (same : ∀ value other, related value other → key value = otherKey other)
    (each : List.Forall₂ related values others) (here : related value other) :
    List.Forall₂ related (put key value values) (put otherKey other others) := by
  rw [put, put, same value other here]
  exact List.rel_append (forall₂_remove same each (otherKey other)) (.cons here .nil)

end GalaGopher.Data.KeyedList
