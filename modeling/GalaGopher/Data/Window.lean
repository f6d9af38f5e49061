import Mathlib.Data.List.Induction
import Mathlib.Data.Nat.Dist

namespace GalaGopher.Data

/-! Stamped samples cut greedily into windows: a sample belongs to the open
window while less than `span` has passed since its opener, and opens the next
one otherwise. -/

section Windows

variable {α : Type} (stamp : α → Nat) (span : Nat)

/-- The open window after one more sample. -/
def enterWindow (window : List α) (sample : α) : List α :=
  match window with
  | [] => [sample]
  | opener :: rest => if stamp sample - stamp opener < span then opener :: rest ++ [sample] else [sample]

/-- The window open after all of `samples`. -/
def openWindow (samples : List α) : List α := samples.foldl (enterWindow stamp span) []

@[simp] theorem openWindow_nil : openWindow stamp span [] = [] := rfl

@[simp] theorem openWindow_concat (samples : List α) (sample : α) :
    openWindow stamp span (samples ++ [sample]) =
      enterWindow stamp span (openWindow stamp span samples) sample := by
  simp [openWindow]

theorem openWindow_suffix (samples : List α) : openWindow stamp span samples <:+ samples := by
  induction samples using List.reverseRecOn with
  | nil => exact List.suffix_rfl
  | append_singleton samples sample ih =>
      rw [openWindow_concat]
      cases window : openWindow stamp span samples with
      | nil => exact List.suffix_append samples [sample]
      | cons opener rest =>
          rw [window] at ih
          simp only [enterWindow]
          split
          · exact (List.suffix_append_self_iff).mpr ih
          · exact List.suffix_append samples [sample]

end Windows

/-- The largest difference between neighbours. -/
def spread : List Nat → Nat
  | first :: second :: rest => max (Nat.dist first second) (spread (second :: rest))
  | _ => 0

@[simp] theorem spread_nil : spread [] = 0 := rfl

@[simp] theorem spread_singleton (value : Nat) : spread [value] = 0 := rfl

theorem spread_concat {values : List Nat} {last : Nat} (ends : values.getLast? = some last) (value : Nat) :
    spread (values ++ [value]) = max (spread values) (Nat.dist last value) := by
  induction values with
  | nil => simp at ends
  | cons first rest ih =>
      cases rest with
      | nil =>
          simp only [List.getLast?_singleton, Option.some.injEq] at ends
          simp [spread, ends]
      | cons second rest =>
          have tail := ih (by simpa using ends)
          simp only [List.cons_append] at tail ⊢
          simp only [spread, tail, max_assoc]

theorem foldr_max_concat (values : List Nat) (value : Nat) :
    (values ++ [value]).foldr max 0 = max (values.foldr max 0) value := by
  induction values with
  | nil => simp
  | cons first rest ih => simp only [List.cons_append, List.foldr_cons, ih, max_assoc]

end GalaGopher.Data
