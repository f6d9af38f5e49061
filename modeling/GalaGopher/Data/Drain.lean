import GalaGopher.Data.Sweep

namespace GalaGopher.Data

/-! Walks that ask for the key after one cursor over and over, and get on by
deleting what they found. -/

namespace Enumeration

variable {κ ν β : Type} {capacity : Nat} [DecidableEq κ] (walk : Enumeration κ ν capacity)

/-- What becomes of the key of each turn: a result, with which it is deleted, or
nothing, and it stays.  The walk does not return when the fuel runs out. -/
def drain (cursor : κ) (attempt : Nat → κ → Option ν → Option β) :
    (fuel turn : Nat) → BoundedMap κ ν capacity → Option (List (κ × Option β) × BoundedMap κ ν capacity)
  | 0, _, _ => none
  | fuel + 1, turn, map =>
      match walk.next map cursor with
      | none => some ([], map)
      | some key =>
          match attempt turn key (map.lookup key) with
          | none => (drain cursor attempt fuel (turn + 1) map).map fun left => ((key, none) :: left.1, left.2)
          | some result =>
              (drain cursor attempt fuel (turn + 1) (map.delete key)).map fun left =>
                ((key, some result) :: left.1, left.2)

variable {walk} {cursor key : κ} {attempt : Nat → κ → Option ν → Option β} {map last : BoundedMap κ ν capacity}
  {fuel turn : Nat} {trace : List (κ × Option β)}

theorem drain_end (none : walk.next map cursor = none) :
    walk.drain cursor attempt (fuel + 1) turn map = some ([], map) := by
  simp only [drain, none]

theorem drain_skip (next : walk.next map cursor = some key) (fails : attempt turn key (map.lookup key) = none) :
    walk.drain cursor attempt (fuel + 1) turn map =
      (walk.drain cursor attempt fuel (turn + 1) map).map fun left => ((key, none) :: left.1, left.2) := by
  simp only [drain, next, fails]

theorem drain_take {result : β} (next : walk.next map cursor = some key)
    (succeeds : attempt turn key (map.lookup key) = some result) :
    walk.drain cursor attempt (fuel + 1) turn map =
      (walk.drain cursor attempt fuel (turn + 1) (map.delete key)).map fun left =>
        ((key, some result) :: left.1, left.2) := by
  simp only [drain, next, succeeds]

theorem drain_skip_some (next : walk.next map cursor = some key) (fails : attempt turn key (map.lookup key) = none)
    (drained : walk.drain cursor attempt (fuel + 1) turn map = some (trace, last)) :
    ∃ rest, trace = (key, none) :: rest ∧ walk.drain cursor attempt fuel (turn + 1) map = some (rest, last) := by
  rw [drain_skip next fails] at drained
  obtain ⟨⟨rest, left⟩, later, same⟩ := Option.map_eq_some_iff.mp drained
  cases same
  exact ⟨rest, rfl, later⟩

theorem drain_take_some {result : β} (next : walk.next map cursor = some key)
    (succeeds : attempt turn key (map.lookup key) = some result)
    (drained : walk.drain cursor attempt (fuel + 1) turn map = some (trace, last)) :
    ∃ rest, trace = (key, some result) :: rest ∧
      walk.drain cursor attempt fuel (turn + 1) (map.delete key) = some (rest, last) := by
  rw [drain_take next succeeds] at drained
  obtain ⟨⟨rest, left⟩, later, same⟩ := Option.map_eq_some_iff.mp drained
  cases same
  exact ⟨rest, rfl, later⟩

theorem next_outside (outside : cursor ∉ walk.order map) : walk.next map cursor = (walk.order map).head? :=
  if_neg outside

/-- The key after a cursor is another. -/
theorem next_ne (next : walk.next map cursor = some key) : key ≠ cursor := by
  rintro rfl
  by_cases member : key ∈ walk.order map
  · obtain ⟨before, behind, split⟩ := List.append_of_mem member
    have shape : walk.order map = (before ++ [key]) ++ behind := by
      rw [split, List.append_assoc, List.singleton_append]
    rw [walk.next_eq shape (.inr ⟨before, rfl⟩)] at next
    exact (walk.fresh_of_split split).2 (List.mem_of_head? next)
  · rw [next_outside member] at next
    exact member (List.mem_of_head? next)

theorem order_delete_head {rest : List κ} (split : walk.order map = key :: rest) :
    walk.order (map.delete key) = rest := by
  rw [walk.order_delete (split.trans (List.nil_append _).symm), List.nil_append]

theorem outside_delete_head {rest : List κ} (split : walk.order map = key :: rest) (outside : cursor ∉ walk.order map) :
    cursor ∉ walk.order (map.delete key) := by
  rw [order_delete_head split]
  rw [split, List.mem_cons, not_or] at outside
  exact outside.2

/-- The cursor itself is never met. -/
theorem drain_ne (drained : walk.drain cursor attempt fuel turn map = some (trace, last)) :
    cursor ∉ trace.map Prod.fst := by
  induction fuel generalizing turn map trace with
  | zero => cases drained
  | succ fuel ih =>
      cases next : walk.next map cursor with
      | none =>
          rw [drain_end next] at drained
          cases drained
          exact List.not_mem_nil
      | some key =>
          have other := next_ne next
          cases outcome : attempt turn key (map.lookup key) with
          | none =>
              obtain ⟨rest, rfl, later⟩ := drain_skip_some next outcome drained
              rw [List.map_cons, List.mem_cons, not_or]
              exact ⟨Ne.symm other, ih later⟩
          | some result =>
              obtain ⟨rest, rfl, later⟩ := drain_take_some next outcome drained
              rw [List.map_cons, List.mem_cons, not_or]
              exact ⟨Ne.symm other, ih later⟩

/-- A key that is skipped is met again in the next turn. -/
theorem drain_head {rest : List κ} (split : walk.order map = key :: rest) (outside : cursor ∉ walk.order map)
    (drained : walk.drain cursor attempt fuel turn map = some (trace, last)) : key ∈ trace.map Prod.fst := by
  cases fuel with
  | zero => cases drained
  | succ fuel =>
      have next : walk.next map cursor = some key := by
        rw [next_outside outside, split, List.head?_cons]
      cases outcome : attempt turn key (map.lookup key) with
      | none =>
          obtain ⟨later, rfl, _⟩ := drain_skip_some next outcome drained
          exact List.mem_cons_self
      | some result =>
          obtain ⟨later, rfl, _⟩ := drain_take_some next outcome drained
          exact List.mem_cons_self

/-- The attempts that a walk without a skip makes, each key in its turn. -/
def AllSucceed (walk : Enumeration κ ν capacity) (attempt : Nat → κ → Option ν → Option β) (turn : Nat)
    (map : BoundedMap κ ν capacity) : Prop :=
  ∀ (place : Nat) key, (walk.order map)[place]? = some key → (attempt (turn + place) key (map.lookup key)).isSome

theorem allSucceed_cons {rest : List κ} (split : walk.order map = key :: rest) :
    AllSucceed walk attempt turn map ↔
      (attempt turn key (map.lookup key)).isSome ∧ AllSucceed walk attempt (turn + 1) (map.delete key) := by
  have fresh := (walk.fresh_of_split (split.trans (List.nil_append _).symm)).2
  have kept {place : Nat} {other : κ} (here : rest[place]? = some other) :
      (map.delete key).lookup other = map.lookup other := by
    rw [BoundedMap.lookup_delete_of_ne]
    rintro rfl
    exact fresh (List.mem_of_getElem? here)
  simp only [AllSucceed, order_delete_head split, split]
  constructor
  · intro all
    refine ⟨all 0 key rfl, fun place other here => ?_⟩
    rw [kept here, Nat.add_assoc, Nat.add_comm 1]
    exact all (place + 1) other here
  · rintro ⟨first, later⟩ place other here
    cases place with
    | zero =>
        cases here
        exact first
    | succ place =>
        have found := later place other here
        rwa [kept here, Nat.add_assoc, Nat.add_comm 1] at found

theorem drain_of_allSucceed (outside : cursor ∉ walk.order map) (all : AllSucceed walk attempt turn map) :
    ∃ fuel trace last, walk.drain cursor attempt fuel turn map = some (trace, last) ∧
      trace.map Prod.fst = walk.order map ∧ last.entries = [] := by
  generalize keys : walk.order map = order
  induction order generalizing map turn with
  | nil =>
      have length := walk.length_order map
      rw [keys] at length
      refine ⟨1, [], map, drain_end ?_, rfl, List.length_eq_zero_iff.mp length.symm⟩
      rw [next_outside outside, keys, List.head?_nil]
  | cons key rest ih =>
      obtain ⟨first, later⟩ := (allSucceed_cons keys).mp all
      obtain ⟨result, succeeds⟩ := Option.isSome_iff_exists.mp first
      have remaining := order_delete_head keys
      have still := outside_delete_head keys outside
      obtain ⟨fuel, trace, last, drained, met, empty⟩ := ih still later remaining
      refine ⟨fuel + 1, (key, some result) :: trace, last, ?_, ?_, empty⟩
      · rw [drain_take (by rw [next_outside outside, keys, List.head?_cons]) succeeds, drained]
        rfl
      · rw [List.map_cons, met]

theorem allSucceed_of_drain (outside : cursor ∉ walk.order map)
    (drained : walk.drain cursor attempt fuel turn map = some (trace, last)) (once : (trace.map Prod.fst).Nodup) :
    AllSucceed walk attempt turn map := by
  induction fuel generalizing turn map trace with
  | zero => cases drained
  | succ fuel ih =>
      cases keys : walk.order map with
      | nil =>
          intro place key here
          rw [keys] at here
          cases here
      | cons key rest =>
          have next : walk.next map cursor = some key := by
            rw [next_outside outside, keys, List.head?_cons]
          cases outcome : attempt turn key (map.lookup key) with
          | none =>
              obtain ⟨traced, rfl, later⟩ := drain_skip_some next outcome drained
              exact absurd (drain_head keys outside later) (List.nodup_cons.mp once).1
          | some result =>
              obtain ⟨traced, rfl, later⟩ := drain_take_some next outcome drained
              have still := outside_delete_head keys outside
              refine (allSucceed_cons keys).mpr ⟨?_, ih still later (List.nodup_cons.mp once).2⟩
              rw [outcome]
              rfl

/-- The walk returns with every key met once exactly when the cursor is no key
and no attempt fails. -/
theorem drain_once_iff (walk : Enumeration κ ν capacity) (attempt : Nat → κ → Option ν → Option β)
    (turn : Nat) (map : BoundedMap κ ν capacity) (cursor : κ) :
    (∃ fuel trace last, walk.drain cursor attempt fuel turn map = some (trace, last) ∧
        (trace.map Prod.fst).Perm (map.entries.map Prod.fst)) ↔
      map.lookup cursor = none ∧ AllSucceed walk attempt turn map := by
  constructor
  · rintro ⟨fuel, trace, last, drained, met⟩
    have absent : cursor ∉ walk.order map := by
      intro member
      exact drain_ne drained (met.mem_iff.mpr ((walk.perm map).mem_iff.mp member))
    refine ⟨?_, allSucceed_of_drain absent drained (met.nodup_iff.mpr map.distinct)⟩
    rwa [walk.mem_order_iff, Option.not_isSome_iff_eq_none] at absent
  · rintro ⟨absent, all⟩
    have outside : cursor ∉ walk.order map := by
      rw [walk.mem_order_iff, Option.not_isSome_iff_eq_none]
      exact absent
    obtain ⟨fuel, trace, last, drained, met, _⟩ := drain_of_allSucceed outside all
    exact ⟨fuel, trace, last, drained, met ▸ walk.perm map⟩

/-- A key that fails in every turn holds the walk for ever. -/
theorem drain_stuck (next : walk.next map cursor = some key) (fails : ∀ turn, attempt turn key (map.lookup key) = none)
    (fuel turn : Nat) : walk.drain cursor attempt fuel turn map = none := by
  induction fuel generalizing turn with
  | zero => rfl
  | succ fuel ih =>
      rw [drain_skip next (fails turn), ih]
      rfl

end Enumeration

end GalaGopher.Data
