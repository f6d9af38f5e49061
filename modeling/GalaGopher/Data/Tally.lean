import GalaGopher.Data.BoundedMap
import Mathlib.Data.List.Dedup
import Mathlib.Data.List.Induction
import Mathlib.Data.List.Perm.Subperm
import Mathlib.Algebra.Group.Nat.Defs

namespace GalaGopher.Data

section Tally

variable {ι μ ω : Type} {capacity : Nat} [DecidableEq μ] (group : ι → μ) (add : Option ω → ι → ω)

/-- Read, change and write back the entry of the item's group; what finds no
room is dropped. -/
def tallyItem (map : BoundedMap μ ω capacity) (item : ι) : BoundedMap μ ω capacity :=
  (map.update (group item) (add (map.lookup (group item)) item)).getD map

/-- What the items of one group come to. -/
def tallyOf (items : List ι) (key : μ) : Option ω :=
  (items.filter fun item => group item = key).foldl (fun sum item => some (add sum item)) none

@[simp] theorem tallyOf_concat (items : List ι) (item : ι) (key : μ) :
    tallyOf group add (items ++ [item]) key =
      if group item = key then some (add (tallyOf group add items key) item) else tallyOf group add items key := by
  rw [tallyOf, List.filter_append, List.foldl_append]
  by_cases same : group item = key
  · simp [same, tallyOf]
  · simp [same, tallyOf]

theorem tallyOf_eq_none_iff (items : List ι) (key : μ) :
    tallyOf group add items key = none ↔ ∀ item ∈ items, group item ≠ key := by
  induction items using List.reverseRecOn with
  | nil => simp [tallyOf]
  | append_singleton items item ih =>
      rw [tallyOf_concat]
      by_cases same : group item = key
      · simp [same]
      · rw [if_neg same, ih]
        simp only [List.mem_append, List.mem_singleton, or_imp, forall_and, forall_eq, same, ne_eq,
          not_false_eq_true, and_true]

/-- What a group comes to was left by one of its items. -/
theorem tallyOf_last {items : List ι} {key : μ} {sum : ω} (found : tallyOf group add items key = some sum) :
    ∃ item ∈ items, ∃ before, group item = key ∧ sum = add before item := by
  induction items using List.reverseRecOn with
  | nil => cases found
  | append_singleton items item ih =>
      rw [tallyOf_concat] at found
      split at found
      · rename_i same
        exact ⟨item, by simp, _, same, (Option.some.inj found).symm⟩
      · obtain ⟨earlier, member, before, same, left⟩ := ih found
        exact ⟨earlier, List.mem_append_left _ member, before, same, left⟩

/-- The keys of a map that has what the items come to are their groups. -/
theorem tally_keys {map : BoundedMap μ ω capacity} {items : List ι}
    (known : ∀ key, map.lookup key = tallyOf group add items key) :
    map.entries.map Prod.fst ⊆ items.map group := by
  intro key held
  have present : map.lookup key ≠ none := fun none => (map.lookup_eq_none_iff key).mp none held
  rw [known, ne_eq, tallyOf_eq_none_iff] at present
  simp only [ne_eq, not_forall, not_not] at present
  obtain ⟨item, member, rfl⟩ := present
  exact List.mem_map_of_mem member

theorem tally_length {map : BoundedMap μ ω capacity} {items : List ι}
    (known : ∀ key, map.lookup key = tallyOf group add items key) : map.entries.length ≤ items.length := by
  have fits := (map.distinct.subperm (tally_keys group add known)).length_le
  rwa [List.length_map, List.length_map] at fits

/-- A map of the groups so far has room for a new one. -/
theorem tally_room {map : BoundedMap μ ω capacity} {items : List ι} {item : ι}
    (known : ∀ key, map.lookup key = tallyOf group add items key) (absent : map.lookup (group item) = none)
    (room : ((items ++ [item]).map group).dedup.length ≤ capacity) : map.entries.length < capacity := by
  have fresh := (map.lookup_eq_none_iff (group item)).mp absent
  have distinct : (group item :: map.entries.map Prod.fst).Nodup := List.nodup_cons.mpr ⟨fresh, map.distinct⟩
  have among : group item :: map.entries.map Prod.fst ⊆ ((items ++ [item]).map group).dedup := by
    intro key member
    rw [List.mem_dedup, List.map_append, List.mem_append]
    rcases List.mem_cons.mp member with rfl | held
    · exact .inr (List.mem_singleton_self _)
    · exact .inl (tally_keys group add known held)
  have fits := (distinct.subperm among).length_le
  rw [List.length_cons, List.length_map] at fits
  exact Nat.le_trans fits room

/-- With room for every group, the entry of a group is what its items come to. -/
theorem lookup_tally (items : List ι) (room : (items.map group).dedup.length ≤ capacity) (key : μ) :
    ((items.foldl (tallyItem group add) .empty : BoundedMap μ ω capacity).lookup key) =
      tallyOf group add items key := by
  induction items using List.reverseRecOn generalizing key with
  | nil => rfl
  | append_singleton items item ih =>
      have fewer : (items.map group).dedup.length ≤ capacity := by
        refine Nat.le_trans ?_ room
        have among : (items.map group).dedup ⊆ ((items ++ [item]).map group).dedup := by
          intro key member
          rw [List.mem_dedup] at member ⊢
          rw [List.map_append]
          exact List.mem_append_left _ member
        exact ((List.nodup_dedup _).subperm among).length_le
      have known := ih fewer
      rw [List.foldl_append, List.foldl_cons, List.foldl_nil, tallyItem]
      cases updated : (items.foldl (tallyItem group add) .empty : BoundedMap μ ω capacity).update (group item)
          (add ((items.foldl (tallyItem group add) .empty : BoundedMap μ ω capacity).lookup (group item)) item) with
      | some after =>
          rw [Option.getD_some, BoundedMap.lookup_update updated, tallyOf_concat, known, known]
          by_cases same : key = group item
          · simp [same]
          · rw [if_neg same, if_neg (Ne.symm same)]
      | none =>
          obtain ⟨absent, full⟩ := (BoundedMap.update_eq_none_iff ..).mp updated
          exact absurd full (Nat.not_le.mpr (tally_room group add known absent room))

/-- A counter that every item moves by one, within its width. -/
theorem tallyOf_count {count : ω → Nat} {modulus : Nat}
    (moves : ∀ sum item, count (add sum item) = (sum.elim 0 count + 1) % modulus) (items : List ι) (key : μ) :
    (tallyOf group add items key).elim 0 count = (items.filter fun item => group item = key).length % modulus := by
  induction items using List.reverseRecOn with
  | nil => exact (Nat.zero_mod modulus).symm
  | append_singleton items item ih =>
      rw [tallyOf_concat, List.filter_append, List.length_append]
      by_cases same : group item = key
      · rw [if_pos same, Option.elim_some, moves, ih, Nat.mod_add_mod]
        simp [same]
      · rw [if_neg same, ih]
        simp [same]

end Tally

end GalaGopher.Data
