import Mathlib.Data.List.Nodup
import Mathlib.Data.List.Perm.Subperm
import Mathlib.Data.Option.Basic

namespace GalaGopher.Data

/-- Each key has one entry at most, and there are at most `capacity`. -/
structure BoundedMap (κ ν : Type) (capacity : Nat) where
  entries : List (κ × ν)
  distinct : (entries.map Prod.fst).Nodup
  fits : entries.length ≤ capacity

namespace BoundedMap

variable {κ ν : Type} {capacity : Nat}

def empty : BoundedMap κ ν capacity := ⟨[], .nil, Nat.zero_le capacity⟩

variable [DecidableEq κ] (map : BoundedMap κ ν capacity) (key other : κ) (value : ν)

def lookup : Option ν := (map.entries.find? fun entry => entry.1 = key).map Prod.snd

/-- The entry of `key` changed in place. -/
def modifyEntries (change : ν → ν) (entries : List (κ × ν)) : List (κ × ν) :=
  entries.map fun entry => if entry.1 = key then (entry.1, change entry.2) else entry

theorem modifyEntries_keys (change : ν → ν) (entries : List (κ × ν)) :
    (modifyEntries key change entries).map Prod.fst = entries.map Prod.fst := by
  rw [modifyEntries, List.map_map]
  apply List.map_congr_left
  intro entry _
  simp only [Function.comp_apply]
  split <;> rfl

def modify (change : ν → ν) : BoundedMap κ ν capacity where
  entries := modifyEntries key change map.entries
  distinct := (modifyEntries_keys key change map.entries).symm ▸ map.distinct
  fits := by simpa [modifyEntries] using map.fits

theorem lookup_eq_none_iff : map.lookup key = none ↔ key ∉ map.entries.map Prod.fst := by
  rw [lookup, Option.map_eq_none_iff, List.find?_eq_none, List.mem_map, not_exists]
  simp only [decide_eq_true_eq, not_and]

theorem isSome_lookup_iff : (map.lookup key).isSome ↔ key ∈ map.entries.map Prod.fst := by
  rw [Option.isSome_iff_ne_none, Ne, lookup_eq_none_iff, not_not]

theorem lookup_eq_some_iff : map.lookup key = some value ↔ (key, value) ∈ map.entries := by
  refine ⟨fun found => ?_, fun member => ?_⟩
  · obtain ⟨entry, search, rfl⟩ := Option.map_eq_some_iff.mp found
    have same : entry.1 = key := by simpa using List.find?_some search
    rw [← same]
    exact List.mem_of_find?_eq_some search
  · cases search : map.entries.find? fun entry => entry.1 = key with
    | none =>
        have absent := List.find?_eq_none.mp search (key, value) member
        simp at absent
    | some entry =>
        have same : entry.1 = key := by simpa using List.find?_some search
        have equal : entry = (key, value) :=
          List.inj_on_of_nodup_map map.distinct (List.mem_of_find?_eq_some search) member same
        rw [lookup, search, equal]
        rfl

theorem entries_eq_nil (absent : ∀ key, map.lookup key = none) : map.entries = [] := by
  apply List.eq_nil_iff_forall_not_mem.mpr
  intro entry member
  have found := (map.lookup_eq_some_iff entry.1 entry.2).mpr member
  rw [absent] at found
  cases found

theorem append_distinct (absent : map.lookup key = none) :
    ((map.entries ++ [(key, value)]).map Prod.fst).Nodup := by
  have fresh := (map.lookup_eq_none_iff key).mp absent
  rw [List.map_append, List.nodup_append]
  refine ⟨map.distinct, by simp, ?_⟩
  intro left leftMember right rightMember same
  rw [List.map_singleton, List.mem_singleton] at rightMember
  subst right left
  exact fresh leftMember

omit [DecidableEq κ] in
theorem append_fits (room : map.entries.length < capacity) :
    (map.entries ++ [(key, value)]).length ≤ capacity := by
  rw [List.length_append]
  exact room

/-- Store a value under its key, new or not; a new key finds no room in a full
map. -/
def update : Option (BoundedMap κ ν capacity) :=
  match absent : map.lookup key with
  | some _ => some (map.modify key fun _ => value)
  | none =>
      if room : map.entries.length < capacity then
        some ⟨map.entries ++ [(key, value)], map.append_distinct key value absent, map.append_fits key value room⟩
      else
        none

def delete : BoundedMap κ ν capacity where
  entries := map.entries.filter fun entry => entry.1 ≠ key
  distinct := map.distinct.sublist (List.filter_sublist.map Prod.fst)
  fits := Nat.le_trans (List.length_filter_le _ _) map.fits

variable {map key value}

@[simp] theorem lookup_empty : (empty : BoundedMap κ ν capacity).lookup key = none := rfl

theorem lookup_modify (map : BoundedMap κ ν capacity) (key other : κ) (change : ν → ν) :
    (map.modify key change).lookup other =
      if other = key then (map.lookup key).map change else map.lookup other := by
  have search : ((fun entry : κ × ν => decide (entry.1 = other)) ∘ fun entry =>
      if entry.1 = key then (entry.1, change entry.2) else entry) = fun entry => decide (entry.1 = other) := by
    funext entry
    simp only [Function.comp_apply]
    split <;> rfl
  simp only [lookup, modify, modifyEntries, List.find?_map, search]
  by_cases same : other = key
  · subst other
    cases found : map.entries.find? fun entry => entry.1 = key with
    | none => rw [if_pos rfl, Option.map_none]; rfl
    | some entry =>
        have here : entry.1 = key := by simpa using List.find?_some found
        simp [here]
  · cases found : map.entries.find? fun entry => entry.1 = other with
    | none => rw [if_neg same]; rfl
    | some entry =>
        have here : entry.1 = other := by simpa using List.find?_some found
        simp [here, same]

theorem lookup_modify_self (map : BoundedMap κ ν capacity) (key : κ) (change : ν → ν) :
    (map.modify key change).lookup key = (map.lookup key).map change := by
  rw [lookup_modify, if_pos rfl]

theorem lookup_modify_of_ne {other : κ} (different : other ≠ key) (change : ν → ν) :
    (map.modify key change).lookup other = map.lookup other := by
  rw [lookup_modify, if_neg different]

/-- Changing entries in place keeps the keys. -/
@[simp] theorem isSome_lookup_modify (map : BoundedMap κ ν capacity) (key other : κ) (change : ν → ν) :
    ((map.modify key change).lookup other).isSome = (map.lookup other).isSome := by
  rw [lookup_modify]
  split
  case isTrue same => rw [same, Option.isSome_map]
  case isFalse => rfl

theorem lookup_update {after : BoundedMap κ ν capacity} (updated : map.update key value = some after)
    (other : κ) : after.lookup other = if other = key then some value else map.lookup other := by
  unfold update at updated
  split at updated
  case h_1 old present =>
      cases updated
      rw [lookup_modify, present]
      rfl
  case h_2 absent =>
      split at updated
      case isFalse => cases updated
      case isTrue room =>
          cases updated
          have fresh := (map.lookup_eq_none_iff key).mp absent
          simp only [lookup, List.find?_append]
          by_cases same : other = key
          · subst other
            have none : map.entries.find? (fun entry => entry.1 = key) = .none := by
              simpa [lookup] using absent
            simp [none]
          · simp [same, Ne.symm same]

theorem update_eq_none_iff (map : BoundedMap κ ν capacity) (key : κ) (value : ν) :
    map.update key value = none ↔ map.lookup key = none ∧ capacity ≤ map.entries.length := by
  unfold update
  split
  case h_1 old present => simp [present]
  case h_2 absent =>
      split
      case isTrue room => simp [room]
      case isFalse full => simpa [absent] using full

/-- There is room for a key of another map that has all the keys of this one. -/
theorem isSome_update_of_within {μ : Type} {wide : BoundedMap κ μ capacity}
    (within : ∀ other, (map.lookup other).isSome → (wide.lookup other).isSome) (present : (wide.lookup key).isSome)
    (value : ν) : (map.update key value).isSome := by
  rw [Option.isSome_iff_ne_none, Ne, update_eq_none_iff]
  rintro ⟨absent, full⟩
  have fresh := (map.lookup_eq_none_iff key).mp absent
  have subset : key :: map.entries.map Prod.fst ⊆ wide.entries.map Prod.fst := by
    intro other member
    rw [← isSome_lookup_iff]
    rcases List.mem_cons.mp member with rfl | earlier
    · exact present
    · exact within other ((map.isSome_lookup_iff other).mpr earlier)
  have counted := (List.subperm_of_subset (List.nodup_cons.mpr ⟨fresh, map.distinct⟩) subset).length_le
  have fits := wide.fits
  simp only [List.length_cons, List.length_map] at counted
  omega

theorem lookup_delete (map : BoundedMap κ ν capacity) (key other : κ) :
    (map.delete key).lookup other = if other = key then none else map.lookup other := by
  simp only [lookup, delete]
  by_cases same : other = key
  · subst other
    rw [if_pos rfl, Option.map_eq_none_iff, List.find?_eq_none]
    intro entry member
    simpa using (List.mem_filter.mp member).2
  · rw [List.find?_filter, if_neg same]
    congr 2
    funext entry
    by_cases here : entry.1 = other
    · simp [here, same]
    · simp [here]

theorem lookup_delete_self (map : BoundedMap κ ν capacity) (key : κ) : (map.delete key).lookup key = none := by
  rw [lookup_delete, if_pos rfl]

theorem lookup_delete_of_ne {other : κ} (different : other ≠ key) : (map.delete key).lookup other = map.lookup other := by
  rw [lookup_delete, if_neg different]

end BoundedMap

end GalaGopher.Data
