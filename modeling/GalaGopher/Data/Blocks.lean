import Mathlib.Data.List.Forall2
import Mathlib.Data.List.Count

namespace GalaGopher.Data.Blocks

/-! Pages assembled from blocks of lines, some of them cut short.  A mark that
every line carries tells a complete page from a cut one by counting. -/

variable {α β : Type}

theorem exists_left {R : α → β → Prop} {left : List α} {right : List β}
    (related : List.Forall₂ R left right) {item : β} (member : item ∈ right) :
    ∃ other ∈ left, R other item := by
  induction related with
  | nil => simp at member
  | cons head tail ih =>
      rcases List.mem_cons.mp member with rfl | later
      · exact ⟨_, List.mem_cons_self, head⟩
      · obtain ⟨other, otherMember, holds⟩ := ih later
        exact ⟨other, List.mem_cons_of_mem _ otherMember, holds⟩

theorem length_le_flatMap {pieces : β → List α} {items : List β} (nonempty : ∀ item ∈ items, pieces item ≠ []) :
    items.length ≤ (items.flatMap pieces).length := by
  induction items with
  | nil => exact Nat.le_refl _
  | cons item items ih =>
      obtain ⟨present, others⟩ := List.forall_mem_cons.mp nonempty
      have positive := List.length_pos_of_ne_nil present
      have later := ih others
      rw [List.flatMap_cons, List.length_append, List.length_cons]
      omega

/-- Items that each leave something leave one piece apiece when there are no
more pieces than items. -/
theorem pieces_apiece {R : α → β → Prop} {pieces : β → List α} {items : List β}
    (nonempty : ∀ item ∈ items, pieces item ≠ []) :
    List.Forall₂ R (items.flatMap pieces) items ↔ ∀ item ∈ items, ∃ piece, pieces item = [piece] ∧ R piece item := by
  induction items with
  | nil => simp
  | cons item items ih =>
      obtain ⟨present, others⟩ := List.forall_mem_cons.mp nonempty
      rw [List.flatMap_cons, List.forall_mem_cons]
      constructor
      · intro related
        have enough := length_le_flatMap others
        obtain ⟨first, more, split⟩ := List.exists_cons_of_ne_nil present
        rw [split, List.cons_append, List.forall₂_cons] at related
        have lengths := related.2.length_eq
        rw [List.length_append] at lengths
        have single : more = [] := List.eq_nil_of_length_eq_zero (by omega)
        rw [single, List.nil_append] at related
        exact ⟨⟨first, single ▸ split, related.1⟩, (ih others).mp related.2⟩
      · intro given
        obtain ⟨⟨piece, single, holds⟩, rest⟩ := given
        rw [single]
        exact .cons holds ((ih others).mpr rest)

variable [DecidableEq α] {mark : α}

theorem front_count {block lines : List (List α)} (front : block <+: lines)
    (marked : ∀ line ∈ lines, mark ∈ line) :
    block.flatten.count mark ≤ lines.flatten.count mark ∧
      (lines.flatten.count mark ≤ block.flatten.count mark → block = lines) := by
  obtain ⟨omitted, rfl⟩ := front
  rw [List.flatten_append, List.count_append]
  refine ⟨by omega, fun enough => ?_⟩
  cases omitted with
  | nil => simp
  | cons line rest =>
      have positive := List.count_pos_iff.mpr (marked line (by simp))
      rw [List.flatten_cons, List.count_append] at enough
      omega

/-- Blocks that are each the front of their item's lines hold no more marks
than the items, and as many only when no line was left out. -/
theorem cut_count {whole : β → List (List α)} {blocks : List (List (List α))} {items : List β}
    (cut : List.Forall₂ (fun block item => block <+: whole item) blocks items)
    (marked : ∀ item ∈ items, ∀ line ∈ whole item, mark ∈ line) :
    blocks.flatten.flatten.count mark ≤ (items.flatMap whole).flatten.count mark ∧
      ((items.flatMap whole).flatten.count mark ≤ blocks.flatten.flatten.count mark →
        blocks.flatten = items.flatMap whole) := by
  induction cut with
  | nil => simp
  | @cons block item blocks items front _ ih =>
      obtain ⟨fewer, exact⟩ := front_count front (marked item (by simp))
      obtain ⟨restFewer, restExact⟩ := ih fun other member => marked other (by simp [member])
      simp only [List.flatten_cons, List.flatMap_cons, List.flatten_append, List.count_append]
      refine ⟨by omega, fun enough => ?_⟩
      rw [exact (by omega), restExact (by omega)]

end GalaGopher.Data.Blocks
