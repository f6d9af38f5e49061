import GalaGopher.Text.Bytes
import Mathlib.Data.List.Count

namespace GalaGopher.Text

/-! Texts read from front to back, and texts between quotes.

Every reader takes the bytes ahead of it and answers what it has read and the
bytes after it. -/

abbrev Reader (α : Type) := Bytes → Option (α × Bytes)

def quote : UInt8 := 34
def comma : UInt8 := 44
def colon : UInt8 := 58
def backslash : UInt8 := 92
def openBrace : UInt8 := 123
def closeBrace : UInt8 := 125

/-- One item is read, and then the others from what it leaves. -/
theorem read_cons_iff {α : Type} {item : Option (α × Bytes)} {more : Reader (List α)} {first : α} {others : List α}
    {rest : Bytes} :
    (item.bind fun first => (more first.2).map fun others => (first.1 :: others.1, others.2)) =
        some (first :: others, rest) ↔
      ∃ after, item = some (first, after) ∧ more after = some (others, rest) := by
  rw [Option.bind_eq_some_iff]
  constructor
  · intro given
    obtain ⟨⟨found, after⟩, read, later⟩ := given
    rw [Option.map_eq_some_iff] at later
    obtain ⟨⟨tail, last⟩, later, same⟩ := later
    cases same
    exact ⟨after, read, later⟩
  · intro given
    obtain ⟨after, read, later⟩ := given
    refine ⟨(first, after), read, ?_⟩
    rw [later]
    rfl

/-- A text pasted between quotes is read back only from itself.  A longer
reading would take in the quote behind the text, and a decoding that loses no
quotes could not give the text back. -/
theorem pasted_unique {value suffix consumed rest : Bytes}
    (split : value ++ quote :: suffix = consumed ++ quote :: rest) (length : value.length ≤ consumed.length)
    (count : consumed.count quote ≤ value.count quote) : value = consumed ∧ suffix = rest := by
  rcases Nat.lt_or_eq_of_le length with shorter | same
  · have longer : value ++ [quote] <+: consumed := by
      have first : value ++ [quote] <+: consumed ++ quote :: rest := by
        rw [← split]
        exact ⟨suffix, by simp⟩
      refine List.prefix_of_prefix_length_le first ⟨quote :: rest, rfl⟩ ?_
      rw [List.length_append, List.length_singleton]
      exact shorter
    have more := longer.sublist.count_le quote
    rw [List.count_append, List.count_singleton_self] at more
    omega
  · obtain ⟨front, behind⟩ := List.append_inj split same
    exact ⟨front, List.tail_eq_of_cons_eq behind⟩

end GalaGopher.Text
