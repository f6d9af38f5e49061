import GalaGopher.Text.Bytes
import Mathlib.Data.List.Infix
import Mathlib.Data.List.OfFn

namespace GalaGopher.Text

abbrev Memory (size : Nat) := Fin size → UInt8

namespace Memory

variable {size : Nat}

/-- `memcpy` of `data` to the bytes from `offset` on. -/
def copyAt (memory : Memory size) (offset : Nat) (data : Bytes) : Memory size :=
  fun place => if offset ≤ place.val then data.getD (place.val - offset) (memory place) else memory place

/-- What lies from `offset` on. -/
def after (memory : Memory size) (offset : Nat) : Bytes := (List.ofFn memory).drop offset

theorem getElem?_after (memory : Memory size) (offset place : Nat) :
    (memory.after offset)[place]? =
      if inside : offset + place < size then some (memory ⟨offset + place, inside⟩) else none := by
  rw [after, List.getElem?_drop, List.getElem?_ofFn]

theorem copyAt_inside {memory : Memory size} {offset : Nat} {data : Bytes} {place : Fin size}
    (inside : place.val - offset < data.length) (from_offset : offset ≤ place.val) :
    memory.copyAt offset data place = data[place.val - offset] := by
  rw [copyAt, if_pos from_offset, List.getD_eq_getElem?_getD, List.getElem?_eq_getElem inside, Option.getD_some]

theorem copyAt_outside {memory : Memory size} {offset : Nat} {data : Bytes} {place : Fin size}
    (outside : place.val < offset ∨ offset + data.length ≤ place.val) :
    memory.copyAt offset data place = memory place := by
  rw [copyAt]
  split
  case isTrue => rw [List.getD_eq_getElem?_getD, List.getElem?_eq_none (by omega), Option.getD_none]
  case isFalse => rfl

/-- A whole buffer. -/
theorem copyAt_whole (memory other : Memory size) : memory.copyAt 0 (List.ofFn other) = other := by
  funext place
  rw [copyAt_inside (by simp) (Nat.zero_le _)]
  simp

end Memory

/-- Whether the string in the memory is `text`. -/
def strcmp : Bytes → Bytes → Bool
  | [], _ => false
  | byte :: _, [] => byte = 0
  | byte :: memory, wanted :: text => byte = wanted && strcmp memory text

theorem strcmp_iff (memory text : Bytes) : strcmp memory text ↔ text ++ [0] <+: memory := by
  induction text generalizing memory with
  | nil =>
      cases memory with
      | nil => simp [strcmp]
      | cons byte rest =>
          rw [strcmp, decide_eq_true_eq, List.nil_append, List.cons_prefix_cons, @eq_comm _ byte]
          exact (and_iff_left List.nil_prefix).symm
  | cons wanted text ih =>
      cases memory with
      | nil => simp [strcmp]
      | cons byte rest =>
          rw [strcmp, Bool.and_eq_true, decide_eq_true_eq, ih, List.cons_append, List.cons_prefix_cons,
            @eq_comm _ byte]

/-- A string copied without its terminator compares equal if the byte behind it
is clear. -/
theorem strcmp_after_iff {size offset : Nat} {memory : Memory size} {text : Bytes}
    (copied : ∀ place : Fin size, offset ≤ place.val → ∀ inside : place.val - offset < text.length,
      memory place = text[place.val - offset])
    (room : offset + text.length < size) :
    strcmp (memory.after offset) text ↔ memory ⟨offset + text.length, room⟩ = 0 := by
  rw [strcmp_iff, List.prefix_iff_getElem?]
  refine ⟨fun same => ?_, fun clear place inside => ?_⟩
  · have last := same text.length (by simp)
    rw [Memory.getElem?_after, dif_pos room] at last
    simpa using last
  · rw [List.length_append, List.length_singleton] at inside
    rw [Memory.getElem?_after, dif_pos (by omega)]
    by_cases front : place < text.length
    · rw [copied _ (Nat.le_add_right _ _) (by simpa using front), List.getElem_append_left front]
      simp
    · have last : place = text.length := by omega
      subst place
      simp [clear]

end GalaGopher.Text
