import GalaGopher.Data.BoundedMap

namespace GalaGopher.Data

/-- An order on the keys of every map.  A deletion takes its key out and leaves
the order of the others. -/
structure Enumeration (κ ν : Type) (capacity : Nat) [DecidableEq κ] where
  order : BoundedMap κ ν capacity → List κ
  perm : ∀ map, (order map).Perm (map.entries.map Prod.fst)
  delete : ∀ map key, order (map.delete key) = (order map).filter fun other => other ≠ key

namespace Enumeration

variable {κ ν σ : Type} {capacity : Nat} [DecidableEq κ]

/-- Entries in the order they are kept in. -/
def stored : Enumeration κ ν capacity where
  order map := map.entries.map Prod.fst
  perm _ := .refl _
  delete map key := by
    rw [List.filter_map]
    rfl

variable (walk : Enumeration κ ν capacity) {map : BoundedMap κ ν capacity} {cursor key : κ}

/-- The key after the cursor, or the first one where the cursor is no key. -/
def next (map : BoundedMap κ ν capacity) (cursor : κ) : Option κ :=
  if cursor ∈ walk.order map then
    (((walk.order map).dropWhile fun key => key ≠ cursor).drop 1).head?
  else
    (walk.order map).head?

theorem nodup (map : BoundedMap κ ν capacity) : (walk.order map).Nodup := (walk.perm map).nodup_iff.mpr map.distinct

theorem mem_order_iff : key ∈ walk.order map ↔ (map.lookup key).isSome := by
  rw [(walk.perm map).mem_iff, BoundedMap.isSome_lookup_iff]

theorem length_order (map : BoundedMap κ ν capacity) : (walk.order map).length = map.entries.length := by
  rw [(walk.perm map).length_eq, List.length_map]

theorem fresh_of_split {passed rest : List κ} (split : walk.order map = passed ++ key :: rest) :
    key ∉ passed ∧ key ∉ rest := by
  have distinct := walk.nodup map
  rw [split] at distinct
  obtain ⟨_, behind, apart⟩ := List.nodup_append.mp distinct
  exact ⟨fun member => apart key member key List.mem_cons_self rfl, (List.nodup_cons.mp behind).1⟩

theorem order_delete {passed rest : List κ} (split : walk.order map = passed ++ key :: rest) :
    walk.order (map.delete key) = passed ++ rest := by
  obtain ⟨unpassed, fresh⟩ := walk.fresh_of_split split
  rw [walk.delete, split, List.filter_append, List.filter_cons_of_neg (by simp), List.filter_eq_self.mpr,
    List.filter_eq_self.mpr]
  · intro other member
    simpa using fun same : other = key => fresh (same ▸ member)
  · intro other member
    simpa using fun same : other = key => unpassed (same ▸ member)

/-- Where the cursor stands: behind all that it passed, or nowhere. -/
def Behind (cursor : κ) (passed : List κ) (order : List κ) : Prop :=
  (passed = [] ∧ cursor ∉ order) ∨ ∃ earlier, passed = earlier ++ [cursor]

theorem Behind.delete {passed : List κ} (behind : Behind cursor passed (walk.order map)) (key : κ) :
    Behind cursor passed (walk.order (map.delete key)) := by
  rcases behind with ⟨none, absent⟩ | earlier
  · refine .inl ⟨none, ?_⟩
    rw [walk.delete]
    exact fun member => absent (List.mem_filter.mp member).1
  · exact .inr earlier

theorem next_eq {passed rest : List κ} (split : walk.order map = passed ++ rest)
    (behind : Behind cursor passed (walk.order map)) : walk.next map cursor = rest.head? := by
  rcases behind with ⟨rfl, absent⟩ | ⟨earlier, rfl⟩
  · rw [next, if_neg absent, split, List.nil_append]
  · have distinct := walk.nodup map
    rw [split] at distinct
    have fresh : ∀ key ∈ earlier, key ≠ cursor := by
      intro key member same
      subst same
      have apart := (List.nodup_append.mp (List.nodup_append.mp distinct).1).2.2
      exact apart key member key (List.mem_singleton_self key) rfl
    have present : cursor ∈ walk.order map := by simp [split]
    have passes : (walk.order map).dropWhile (fun key => key ≠ cursor) = cursor :: rest := by
      rw [split, List.append_assoc, List.dropWhile_append_of_pos (by simpa using fresh)]
      simp
    rw [next, if_pos present, passes]
    rfl

/-- The walk visits the entry after the cursor, then deletes it if it is
finished and moves on to it otherwise.  It does not return when the fuel runs
out, or finds no entry under a key. -/
def sweep (finished : ν → Bool) (visit : σ → κ → ν → σ) :
    Nat → BoundedMap κ ν capacity → κ → σ → Option (BoundedMap κ ν capacity × σ)
  | 0, _, _, _ => none
  | fuel + 1, map, cursor, state =>
      match walk.next map cursor with
      | none => some (map, state)
      | some key =>
          match map.lookup key with
          | none => none
          | some value =>
              if finished value then
                sweep finished visit fuel (map.delete key) cursor (visit state key value)
              else
                sweep finished visit fuel map key (visit state key value)

variable {finished : ν → Bool} {visit : σ → κ → ν → σ}

/-- The entries at these keys. -/
def listingOf (map : BoundedMap κ ν capacity) (keys : List κ) : List (κ × ν) :=
  keys.filterMap fun key => (map.lookup key).map fun value => (key, value)

theorem listingOf_delete {rest : List κ} (fresh : key ∉ rest) :
    listingOf (map.delete key) rest = listingOf map rest := by
  apply List.filterMap_congr
  intro other member
  rw [BoundedMap.lookup_delete_of_ne]
  intro same
  exact fresh (same ▸ member)

theorem listingOf_eq_map (fallback : ν) {keys : List κ} (present : ∀ key ∈ keys, (map.lookup key).isSome) :
    listingOf map keys = keys.map fun key => (key, (map.lookup key).getD fallback) := by
  rw [listingOf, ← List.filterMap_eq_map]
  apply List.filterMap_congr
  intro key member
  obtain ⟨value, found⟩ := Option.isSome_iff_exists.mp (present key member)
  simp [found]

theorem sweep_rest (state : σ) {passed rest : List κ} {fuel : Nat} (split : walk.order map = passed ++ rest)
    (behind : Behind cursor passed (walk.order map)) (enough : rest.length < fuel) :
    ∃ last, walk.sweep finished visit fuel map cursor state =
        some (last, (listingOf map rest).foldl (fun state entry => visit state entry.1 entry.2) state) ∧
      ∀ key, last.lookup key =
        if key ∈ rest then (map.lookup key).filter fun value => !finished value else map.lookup key := by
  induction rest generalizing map passed cursor state fuel with
  | nil =>
      cases fuel with
      | zero => exact absurd enough (Nat.not_lt_zero _)
      | succ fuel =>
          refine ⟨map, ?_, fun key => by simp⟩
          rw [sweep, walk.next_eq split behind]
          rfl
  | cons key rest ih =>
      cases fuel with
      | zero => exact absurd enough (Nat.not_lt_zero _)
      | succ fuel =>
          have fresh := (walk.fresh_of_split split).2
          have present : (map.lookup key).isSome := walk.mem_order_iff.mp (by simp [split])
          obtain ⟨value, found⟩ := Option.isSome_iff_exists.mp present
          have lists : listingOf map (key :: rest) = (key, value) :: listingOf map rest := by
            simp [listingOf, found]
          rw [sweep, walk.next_eq split behind, List.head?_cons]
          simp only [found, lists, List.foldl_cons]
          cases closed : finished value with
          | true =>
              obtain ⟨last, swept, lookups⟩ := ih (visit state key value) (walk.order_delete split)
                (Behind.delete walk behind key) (Nat.lt_of_succ_lt_succ enough)
              refine ⟨last, ?_, fun other => ?_⟩
              · rw [if_pos rfl, swept, listingOf_delete fresh]
              · rw [lookups, BoundedMap.lookup_delete]
                by_cases same : other = key
                · subst same
                  simp [fresh, found, closed, Option.filter]
                · simp [same]
          | false =>
              have onward : walk.order map = (passed ++ [key]) ++ rest := by
                rw [split, List.append_assoc, List.singleton_append]
              obtain ⟨last, swept, lookups⟩ := ih (visit state key value) onward (.inr ⟨passed, rfl⟩)
                (Nat.lt_of_succ_lt_succ enough)
              refine ⟨last, ?_, fun other => ?_⟩
              · rw [if_neg (by simp), swept]
              · rw [lookups]
                by_cases same : other = key
                · subst same
                  simp [fresh, found, closed, Option.filter]
                · simp [same]

/-- A cursor parts the keys into those it is behind and those the walk visits;
it is not among the latter. -/
theorem exists_split (map : BoundedMap κ ν capacity) (cursor : κ) :
    ∃ passed rest, walk.order map = passed ++ rest ∧ Behind cursor passed (walk.order map) ∧ cursor ∉ rest ∧
      (cursor ∉ walk.order map → rest = walk.order map) := by
  by_cases present : cursor ∈ walk.order map
  · obtain ⟨earlier, rest, split⟩ := List.append_of_mem present
    refine ⟨earlier ++ [cursor], rest, ?_, .inr ⟨earlier, rfl⟩, (walk.fresh_of_split split).2, fun absent => ?_⟩
    · rw [split, List.append_assoc, List.singleton_append]
    · exact absurd present absent
  · exact ⟨[], walk.order map, rfl, .inl ⟨rfl, present⟩, present, fun _ => rfl⟩

/-- A walk from a cursor that is no key visits every entry once, and leaves
those that are not finished. -/
theorem sweep_all (state : σ) (outside : cursor ∉ walk.order map) {fuel : Nat} (enough : map.entries.length < fuel) :
    ∃ last, walk.sweep finished visit fuel map cursor state =
        some (last, (listingOf map (walk.order map)).foldl (fun state entry => visit state entry.1 entry.2) state) ∧
      ∀ key, last.lookup key = (map.lookup key).filter fun value => !finished value := by
  rw [← walk.length_order] at enough
  obtain ⟨last, swept, lookups⟩ := walk.sweep_rest state (List.nil_append _).symm (.inl ⟨rfl, outside⟩) enough
  refine ⟨last, swept, fun key => ?_⟩
  rw [lookups]
  split
  case isTrue => rfl
  case isFalse absent =>
      rw [walk.mem_order_iff, Option.not_isSome_iff_eq_none] at absent
      rw [absent]
      rfl

/-- The entries a walk visits are those of the map. -/
theorem listing_perm (map : BoundedMap κ ν capacity) : (listingOf map (walk.order map)).Perm map.entries := by
  have stored : listingOf map (map.entries.map Prod.fst) = map.entries := by
    rw [listingOf, List.filterMap_map]
    calc
      _ = map.entries.filterMap some := by
        apply List.filterMap_congr
        intro entry member
        simp [(map.lookup_eq_some_iff entry.1 entry.2).mpr member]
      _ = map.entries := List.filterMap_some
  have permuted : (listingOf map (walk.order map)).Perm (listingOf map (map.entries.map Prod.fst)) :=
    (walk.perm map).filterMap _
  rwa [stored] at permuted

end Enumeration

end GalaGopher.Data
