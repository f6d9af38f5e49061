import Mathlib.Data.List.Basic
import Mathlib.Data.Nat.ModEq

namespace GalaGopher.Data

/-! First-in first-out queues of bounded length, and their layout in a circle
of cells. -/

variable {α : Type} {capacity : Nat}

structure BoundedQueue (α : Type) (capacity : Nat) where
  items : List α
  fits : items.length ≤ capacity

inductive QueueCall (α : Type) where
  | put (element : α)
  | get

inductive QueueReply (α : Type) where
  | stored
  | full
  | obtained (element : α)
  | empty
deriving DecidableEq

namespace BoundedQueue

@[ext] theorem ext {left right : BoundedQueue α capacity} (same : left.items = right.items) :
    left = right := by
  cases left
  cases right
  cases same
  rfl

def empty : BoundedQueue α capacity := ⟨[], Nat.zero_le capacity⟩

theorem append_fits {items : List α} (element : α) (room : items.length < capacity) :
    (items ++ [element]).length ≤ capacity := by
  rw [List.length_append]
  exact room

theorem tail_fits (queue : BoundedQueue α capacity) : queue.items.tail.length ≤ capacity := by
  rw [List.length_tail]
  exact Nat.le_trans (Nat.sub_le ..) queue.fits

def put (queue : BoundedQueue α capacity) (element : α) : BoundedQueue α capacity × QueueReply α :=
  if room : queue.items.length < capacity then (⟨queue.items ++ [element], append_fits element room⟩, .stored)
  else (queue, .full)

def get (queue : BoundedQueue α capacity) : BoundedQueue α capacity × QueueReply α :=
  match queue.items.head? with
  | some element => (⟨queue.items.tail, queue.tail_fits⟩, .obtained element)
  | none => (queue, .empty)

def answer (queue : BoundedQueue α capacity) : QueueCall α → BoundedQueue α capacity × QueueReply α
  | .put element => queue.put element
  | .get => queue.get

def run (queue : BoundedQueue α capacity) : List (QueueCall α) → BoundedQueue α capacity × List (QueueReply α)
  | [] => (queue, [])
  | call :: calls =>
      let (after, reply) := queue.answer call
      let (last, replies) := after.run calls
      (last, reply :: replies)

theorem put_stored {queue : BoundedQueue α capacity} (room : queue.items.length < capacity) (element : α) :
    queue.put element = (⟨queue.items ++ [element], append_fits element room⟩, .stored) := by
  rw [put, dif_pos room]

theorem put_full {queue : BoundedQueue α capacity} (full : queue.items.length = capacity) (element : α) :
    queue.put element = (queue, .full) := by
  rw [put, dif_neg (by omega)]

theorem get_obtained {queue : BoundedQueue α capacity} {element : α} {rest : List α}
    (items : queue.items = element :: rest) (fits : rest.length ≤ capacity) :
    queue.get = (⟨rest, fits⟩, .obtained element) := by
  unfold get
  simp only [items, List.head?_cons, List.tail_cons]

theorem get_empty {queue : BoundedQueue α capacity} (items : queue.items = []) :
    queue.get = (queue, .empty) := by
  unfold get
  simp only [items, List.head?_nil]

/-- The elements of the puts that were stored. -/
def accepted : List (QueueCall α) → List (QueueReply α) → List α
  | .put element :: calls, .stored :: replies => element :: accepted calls replies
  | _ :: calls, _ :: replies => accepted calls replies
  | _, _ => []

/-- The elements the gets returned. -/
def returned (replies : List (QueueReply α)) : List α :=
  replies.filterMap fun reply =>
    match reply with
    | .obtained element => some element
    | _ => none

/-- Elements come out in the order they went in, and none is lost. -/
theorem run_conserves (queue : BoundedQueue α capacity) (calls : List (QueueCall α)) :
    returned (queue.run calls).2 ++ (queue.run calls).1.items =
      queue.items ++ accepted calls (queue.run calls).2 := by
  induction calls generalizing queue with
  | nil => simp [run, returned, accepted]
  | cons call calls ih =>
      cases call with
      | put element =>
          rcases Nat.lt_or_ge queue.items.length capacity with room | noRoom
          · have step := ih ⟨queue.items ++ [element], append_fits element room⟩
            simp only [run, answer, put_stored room]
            simpa [returned, accepted] using step
          · have step := ih queue
            simp only [run, answer, put_full (Nat.le_antisymm queue.fits noRoom)]
            simpa [returned, accepted] using step
      | get =>
          cases items : queue.items with
          | nil =>
              have step := ih queue
              simp only [run, answer, get_empty items]
              simpa [returned, accepted, items] using step
          | cons element rest =>
              have restFits : rest.length ≤ capacity := by
                have fits := queue.fits
                rw [items, List.length_cons] at fits
                omega
              have step := ih ⟨rest, restFits⟩
              simp only [run, answer, get_obtained items restFits]
              simpa [returned, accepted] using step

end BoundedQueue

/-- The items lie one after the other from the cell of `first`. -/
def Holds (cells : List α) (first : Nat) (items : List α) : Prop :=
  ∀ index element, items[index]? = some element → cells[(first + index) % cells.length]? = some element

namespace Holds

variable {cells items : List α} {first : Nat} {element : α}

theorem nil (cells : List α) (first : Nat) : Holds cells first [] := by
  intro index element found
  simp at found

theorem congr {other : Nat} (same : first ≡ other [MOD cells.length]) (holds : Holds cells first items) :
    Holds cells other items := by
  intro index element found
  rw [← (same.add_right index : (first + index) % cells.length = (other + index) % cells.length)]
  exact holds index element found

theorem head (holds : Holds cells first (element :: items)) :
    cells[first % cells.length]? = some element := by
  simpa using holds 0 element rfl

theorem tail (holds : Holds cells first (element :: items)) : Holds cells (first + 1) items := by
  intro index item found
  rw [Nat.add_assoc, Nat.add_comm 1 index]
  exact holds (index + 1) item found

/-- Fewer places than cells apart means different cells. -/
theorem cell_ne {near far : Nat} (before : near < far) (apart : far < cells.length) :
    (first + far) % cells.length ≠ (first + near) % cells.length := by
  intro same
  have congruent : far ≡ near [MOD cells.length] := Nat.ModEq.add_left_cancel' first same
  have equal := congruent.eq_of_lt_of_lt apart (Nat.lt_trans before apart)
  omega

/-- The cell behind the last item is free as long as the items do not go
all the way round. -/
theorem append (holds : Holds cells first items) (room : items.length < cells.length) (element : α) :
    Holds (cells.set ((first + items.length) % cells.length) element) first (items ++ [element]) := by
  intro index item found
  rw [List.length_set]
  rcases Nat.lt_trichotomy index items.length with earlier | last | beyond
  · rw [List.getElem?_append_left earlier] at found
    rw [List.getElem?_set_ne (cell_ne earlier room)]
    exact holds index item found
  · subst index
    rw [List.getElem?_concat_length] at found
    cases found
    have inside : (first + items.length) % cells.length < cells.length := Nat.mod_lt _ (by omega)
    rw [List.getElem?_set_self inside]
  · rw [List.getElem?_eq_none (by rw [List.length_append, List.length_singleton]; omega)] at found
    cases found

theorem drop (holds : Holds cells first items) (count : Nat) :
    Holds cells (first + count) (items.drop count) := by
  intro index element found
  rw [List.getElem?_drop] at found
  rw [Nat.add_assoc]
  exact holds (count + index) element found

end Holds

end GalaGopher.Data
