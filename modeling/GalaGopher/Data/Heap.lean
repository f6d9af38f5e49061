import Mathlib.Data.List.Nodup
import Mathlib.Logic.Function.Basic

namespace GalaGopher.Data

variable {β : Type}

structure Heap (β : Type) where
  next : Nat
  content : Nat → Option β

namespace Heap

/-- Nothing is handed out at the null pointer. -/
def empty : Heap β where
  next := 1
  content := fun _ => none

/-- The block handed out is that of `next`. -/
def malloc (heap : Heap β) (value : β) : Heap β where
  next := heap.next + 1
  content := Function.update heap.content heap.next (some value)

/-- Only a block that is still handed out can be given back. -/
def free (heap : Heap β) (pointer : Nat) : Option (Heap β) :=
  if (heap.content pointer).isSome then some { heap with content := Function.update heap.content pointer none } else none

variable {heap : Heap β} {held other : List (Nat × β)} {pointer : Nat} {value : β}

/-- What is handed out is held, each block in one place. -/
structure Owned (heap : Heap β) (held : List (Nat × β)) : Prop where
  distinct : (held.map Prod.fst).Nodup
  content : ∀ pointer value, heap.content pointer = some value ↔ (pointer, value) ∈ held
  issued : ∀ block ∈ held, 0 < block.1 ∧ block.1 < heap.next
  positive : 0 < heap.next

theorem Owned.perm (owned : heap.Owned held) (same : held.Perm other) : heap.Owned other where
  distinct := (same.map Prod.fst).nodup_iff.mp owned.distinct
  content pointer value := (owned.content pointer value).trans same.mem_iff
  issued block member := owned.issued block (same.mem_iff.mpr member)
  positive := owned.positive

theorem Owned.malloc (owned : heap.Owned held) (value : β) : (heap.malloc value).Owned ((heap.next, value) :: held) where
  distinct := by
    refine List.nodup_cons.mpr ⟨fun member => ?_, owned.distinct⟩
    obtain ⟨block, there, same⟩ := List.mem_map.mp member
    exact absurd (owned.issued block there).2 (by omega)
  content pointer stored := by
    change Function.update heap.content heap.next (some value) pointer = some stored ↔ _
    rw [List.mem_cons, Prod.mk.injEq]
    by_cases here : pointer = heap.next
    · subst here
      rw [Function.update_self, Option.some.injEq, and_iff_right rfl, eq_comm]
      refine (or_iff_left fun member => ?_).symm
      exact absurd (owned.issued _ member).2 (Nat.lt_irrefl _)
    · rw [Function.update_of_ne here, owned.content, or_iff_right fun same => here same.1]
  issued block member := by
    rcases List.mem_cons.mp member with rfl | earlier
    · exact ⟨owned.positive, Nat.lt_succ_self _⟩
    · exact ⟨(owned.issued block earlier).1, Nat.lt_succ_of_lt (owned.issued block earlier).2⟩
  positive := Nat.succ_pos _

theorem Owned.read (owned : heap.Owned ((pointer, value) :: held)) : heap.content pointer = some value :=
  (owned.content pointer value).mpr List.mem_cons_self

theorem Owned.free (owned : heap.Owned ((pointer, value) :: held)) :
    ∃ after, heap.free pointer = some after ∧ after.Owned held := by
  obtain ⟨alone, distinct⟩ := List.nodup_cons.mp owned.distinct
  refine ⟨{ heap with content := Function.update heap.content pointer none }, ?_, {
    distinct := distinct
    content := fun other stored => ?_
    issued := fun block member => owned.issued block (List.mem_cons_of_mem _ member)
    positive := owned.positive }⟩
  · rw [Heap.free, owned.read]
    rfl
  · change Function.update heap.content pointer none other = some stored ↔ _
    by_cases here : other = pointer
    · subst here
      rw [Function.update_self]
      exact iff_of_false nofun fun member => alone (List.mem_map.mpr ⟨_, member, rfl⟩)
    · rw [Function.update_of_ne here, owned.content, List.mem_cons, Prod.mk.injEq, or_iff_right fun same => here same.1]

end Heap

end GalaGopher.Data
