import Mathlib.Data.List.Basic
import Mathlib.Logic.Function.Basic

namespace GalaGopher.Data

/-! A ring of places handed out by number, the first free one from a moving
start, and who holds them. -/

variable {n : Nat} {β : Type} {used : Fin n → Bool} {holder : Fin n → Option β} {start place : Fin n}

/-- The places in use are those that someone holds. -/
def Owned (used : Fin n → Bool) (holder : Fin n → Option β) : Prop :=
  ∀ place, used place = (holder place).isSome

theorem Owned.none : Owned (fun _ : Fin n => false) (fun _ => (Option.none : Option β)) := fun _ => rfl

theorem Owned.lend (owned : Owned used holder) (place : Fin n) (value : β) :
    Owned (Function.update used place true) (Function.update holder place (some value)) := by
  intro other
  by_cases same : other = place
  · rw [same, Function.update_self, Function.update_self, Option.isSome_some]
  · rw [Function.update_of_ne same, Function.update_of_ne same, owned other]

theorem Owned.release (owned : Owned used holder) (place : Fin n) :
    Owned (Function.update used place false) (Function.update holder place Option.none) := by
  intro other
  by_cases same : other = place
  · rw [same, Function.update_self, Function.update_self, Option.isSome_none]
  · rw [Function.update_of_ne same, Function.update_of_ne same, owned other]

/-- The place behind another, the first one behind the last. -/
def following (place : Fin n) : Fin n := ⟨(place.val + 1) % n, Nat.mod_lt _ (Nat.zero_lt_of_lt place.isLt)⟩

/-- The next places from a start, around the ring. -/
def around (start : Fin n) : (count : Nat) → List (Fin n)
  | 0 => []
  | count + 1 => start :: around (following start) count

theorem mem_around_iff (start place : Fin n) (count : Nat) :
    place ∈ around start count ↔ ∃ k < count, place.val = (start.val + k) % n := by
  induction count generalizing start with
  | zero => simp [around]
  | succ count ih =>
      have next : ∀ k, ((following start).val + k) % n = (start.val + (k + 1)) % n := by
        intro k
        rw [following, Nat.mod_add_mod, Nat.add_assoc, Nat.add_comm 1 k]
      rw [around, List.mem_cons, ih]
      constructor
      · rintro (rfl | ⟨k, small, same⟩)
        · exact ⟨0, Nat.succ_pos _, (Nat.mod_eq_of_lt place.isLt).symm⟩
        · exact ⟨k + 1, by omega, same.trans (next k)⟩
      · rintro ⟨k, small, same⟩
        cases k with
        | zero => exact .inl (Fin.ext (same.trans (Nat.mod_eq_of_lt start.isLt)))
        | succ k => exact .inr ⟨k, by omega, same.trans (next k).symm⟩

/-- Once around, every place is met. -/
theorem mem_around (start place : Fin n) : place ∈ around start n := by
  rw [mem_around_iff]
  refine ⟨(place.val + (n - start.val)) % n, Nat.mod_lt _ (Nat.zero_lt_of_lt place.isLt), ?_⟩
  have whole : start.val + (place.val + (n - start.val)) = place.val + n := by omega
  rw [Nat.add_mod_mod, whole, Nat.add_mod_right, Nat.mod_eq_of_lt place.isLt]

def firstFree (used : Fin n → Bool) (start : Fin n) : Option (Fin n) :=
  (around start n).find? fun place => !used place

theorem free_of_firstFree (found : firstFree used start = some place) : used place = false := by
  simpa using List.find?_some found

theorem firstFree_eq_none_iff : firstFree used start = none ↔ ∀ place, used place = true := by
  rw [firstFree, List.find?_eq_none]
  constructor
  · intro full place
    simpa using full place (mem_around start place)
  · intro full place _
    simp [full place]

/-- What is handed out next is held by nobody. -/
theorem Owned.fresh (owned : Owned used holder) (found : firstFree used start = some place) :
    holder place = Option.none := by
  have free := free_of_firstFree found
  rw [owned place] at free
  simpa using free

end GalaGopher.Data
