import GalaGopher.Data.BoundedMap
import Mathlib.Data.List.Induction

namespace GalaGopher.Data.BoundedMap

section Occurrences

variable {ι κ : Type} [BEq ι] [LawfulBEq ι] [BEq κ] [LawfulBEq κ]

theorem eraseDups_concat (keys : List κ) (key : κ) :
    (keys ++ [key]).eraseDups = keys.eraseDups ++ if key ∈ keys then [] else [key] := by
  rw [List.eraseDups_append]
  by_cases member : key ∈ keys <;> simp [List.removeAll, List.eraseDups_cons, member]

/-- Keys that are told apart by `name` are told apart by their names. -/
theorem eraseDups_map {name : ι → κ} {items : List ι}
    (apart : ∀ item ∈ items, ∀ other ∈ items, name item = name other → item = other) :
    (items.map name).eraseDups = items.eraseDups.map name := by
  induction items using List.reverseRecOn with
  | nil => rfl
  | append_singleton items item ih =>
      have last : item ∈ items ++ [item] := List.mem_append_right _ (List.mem_singleton_self item)
      have earlier : ∀ other ∈ items, other ∈ items ++ [item] := fun other => List.mem_append_left _
      have known : name item ∈ items.map name ↔ item ∈ items := by
        rw [List.mem_map]
        refine ⟨?_, fun member => ⟨item, member, rfl⟩⟩
        rintro ⟨other, member, same⟩
        exact apart other (earlier other member) item last same ▸ member
      rw [List.map_append, List.map_singleton, eraseDups_concat, eraseDups_concat, List.map_append,
        ih fun one first other second => apart one (earlier one first) other (earlier other second)]
      by_cases member : item ∈ items
      · rw [if_pos (known.mpr member), if_pos member, List.map_nil]
      · rw [if_neg fun found => member (known.mp found), if_neg member, List.map_singleton]

end Occurrences

-- Keys that are stored one by one with the same value, as far as there is
-- room for them.

variable {κ ν : Type} {capacity : Nat} [DecidableEq κ] {map : BoundedMap κ ν capacity} {value : ν}

/-- A full map leaves a new key out. -/
def store (value : ν) (keys : List κ) (map : BoundedMap κ ν capacity) : BoundedMap κ ν capacity :=
  keys.foldl (fun map key => (map.update key value).getD map) map

theorem store_concat (value : ν) (keys : List κ) (key : κ) (map : BoundedMap κ ν capacity) :
    map.store value (keys ++ [key]) = ((map.store value keys).update key value).getD (map.store value keys) := by
  rw [store, List.foldl_append]
  rfl

theorem keys_update (map : BoundedMap κ ν capacity) (key : κ) (value : ν) :
    ((map.update key value).getD map).entries.map Prod.fst =
      (map.entries.map Prod.fst ++ if key ∈ map.entries.map Prod.fst then [] else [key]).take capacity := by
  have within : (map.entries.map Prod.fst).length ≤ capacity := by
    rw [List.length_map]
    exact map.fits
  unfold update
  split
  case h_1 old present =>
      have member : key ∈ map.entries.map Prod.fst := (map.isSome_lookup_iff key).mp (by rw [present]; rfl)
      rw [if_pos member, List.append_nil, List.take_of_length_le within, Option.getD_some]
      exact modifyEntries_keys key (fun _ => value) map.entries
  case h_2 absent =>
      rw [if_neg ((map.lookup_eq_none_iff key).mp absent)]
      split
      case isTrue room =>
          have fits : (map.entries.map Prod.fst ++ [key]).length ≤ capacity := by
            rw [List.length_append, List.length_map]
            exact room
          rw [List.take_of_length_le fits, Option.getD_some, List.map_append]
          rfl
      case isFalse full =>
          have reaches : capacity ≤ (map.entries.map Prod.fst).length := by
            rw [List.length_map]
            exact Nat.le_of_not_lt full
          rw [Option.getD_none, List.take_append_of_le_length reaches, List.take_of_length_le within]

/-- The keys of a map that was empty are the first different ones. -/
theorem keys_store [BEq κ] [LawfulBEq κ] (value : ν) (keys : List κ) :
    ((empty : BoundedMap κ ν capacity).store value keys).entries.map Prod.fst = keys.eraseDups.take capacity := by
  induction keys using List.reverseRecOn with
  | nil => simp [store, empty]
  | append_singleton keys key ih =>
      rw [store_concat, keys_update, ih, eraseDups_concat]
      rcases Nat.lt_or_ge keys.eraseDups.length capacity with room | full
      · rw [List.take_of_length_le (Nat.le_of_lt room)]
        simp only [List.mem_eraseDups]
      · have start (more : List κ) :
            (keys.eraseDups.take capacity ++ more).take capacity = (keys.eraseDups ++ more).take capacity := by
          have reaches : capacity ≤ (keys.eraseDups.take capacity).length := Nat.le_of_eq (List.length_take_of_le full).symm
          rw [List.take_append_of_le_length reaches, List.take_append_of_le_length full, List.take_take, Nat.min_self]
        rw [start, List.take_append_of_le_length full, List.take_append_of_le_length full]

theorem value_store (keys : List κ) (only : ∀ key other, map.lookup key = some other → other = value) (key : κ) (other : ν)
    (found : (map.store value keys).lookup key = some other) : other = value := by
  induction keys using List.reverseRecOn generalizing key with
  | nil => exact only key other found
  | append_singleton keys last ih =>
      rw [store_concat] at found
      cases updated : (map.store value keys).update last value with
      | none =>
          rw [updated] at found
          exact ih key found
      | some after =>
          rw [updated, Option.getD_some, lookup_update updated] at found
          split at found
          case isTrue => exact (Option.some.inj found).symm
          case isFalse => exact ih key found

theorem lookup_store [BEq κ] [LawfulBEq κ] (value : ν) (keys : List κ) (key : κ) :
    ((empty : BoundedMap κ ν capacity).store value keys).lookup key =
      if key ∈ keys.eraseDups.take capacity then some value else none := by
  rw [← keys_store value keys]
  split
  case isTrue member =>
      obtain ⟨other, found⟩ := Option.isSome_iff_exists.mp ((isSome_lookup_iff _ key).mpr member)
      have unset (key : κ) (other : ν) (found : (empty : BoundedMap κ ν capacity).lookup key = some other) : other = value := by
        rw [lookup_empty] at found
        cases found
      rw [found, value_store keys unset key other found]
  case isFalse absent => exact (lookup_eq_none_iff _ key).mpr absent

end GalaGopher.Data.BoundedMap
