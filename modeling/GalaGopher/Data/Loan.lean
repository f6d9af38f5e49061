import Mathlib.Data.List.Infix

namespace GalaGopher.Data

structure Loan (α : Type) where
  lent : List α
  taken : List α

namespace Loan

variable {α : Type} {loan : Loan α} {memory other : List α}

def Settled (loan : Loan α) : Prop := loan.lent.length ≤ loan.taken.length

/-- The next piece, as the memory has it now. -/
def piece (loan : Loan α) (memory : List α) (count : Nat) : List α :=
  ((memory.take loan.lent.length).drop loan.taken.length).take count

def advance (loan : Loan α) (memory : List α) (count : Nat) : Loan α :=
  { loan with taken := loan.taken ++ loan.piece memory count }

/-- What is taken is of what was lent, and the memory has the rest as long as
there is one. -/
structure Kept (memory : List α) (loan : Loan α) : Prop where
  taken : loan.taken <+: loan.lent
  rest : ¬ loan.Settled → loan.lent <+: memory

theorem Kept.fresh {lent : List α} (front : lent <+: memory) : Kept memory { lent, taken := [] } where
  taken := List.nil_prefix
  rest := fun _ => front

theorem Kept.whole (kept : loan.Kept memory) (settled : loan.Settled) : loan.taken = loan.lent :=
  kept.taken.eq_of_length_le settled

/-- The memory may be written once the loan is settled. -/
theorem Kept.write (kept : loan.Kept memory) (settled : loan.Settled) (other : List α) : loan.Kept other where
  taken := kept.taken
  rest := fun unsettled => absurd settled unsettled

theorem Kept.advance (kept : loan.Kept memory) (count : Nat) : (loan.advance memory count).Kept memory := by
  by_cases settled : loan.Settled
  · have nothing : loan.piece memory count = [] := by
      rw [piece, List.drop_eq_nil_of_le, List.take_nil]
      exact Nat.le_trans (List.length_take_le _ _) settled
    have same : loan.advance memory count = loan := by
      rw [Loan.advance, nothing, List.append_nil]
    rw [same]
    exact kept
  · have front := kept.rest settled
    refine ⟨?_, fun _ => front⟩
    -- the piece comes from the rest of what was lent
    obtain ⟨rest, split⟩ := kept.taken
    have piece : loan.piece memory count = rest.take count := by
      rw [Loan.piece, ← List.prefix_iff_eq_take.mp front, ← split, List.drop_left]
    rw [Loan.advance, piece]
    exact split ▸ (List.prefix_append_right_inj loan.taken).mpr (List.take_prefix count rest)

end Loan

end GalaGopher.Data
