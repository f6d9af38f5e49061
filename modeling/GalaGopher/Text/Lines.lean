import GalaGopher.Data.Pieces
import GalaGopher.Text.Bytes
import Mathlib.Data.List.TakeWhile

namespace GalaGopher.Text

open Data

/-- The string in a buffer. -/
def cString (buffer : Bytes) : Bytes := buffer.takeWhile fun byte => byte ≠ 0

def splitNewlineSymbol (s : Bytes) : Bytes := if s.getLast? = some newline then s.dropLast else s

/-- The strings that `fgets` leaves in a buffer of `size` bytes, call by call. -/
def fgetsStrings (size : Nat) (stream : Bytes) : List Bytes := (pieces newline (size - 1) stream).map cString

/-- A text that a line can hold. -/
structure Lineal (text : Bytes) : Prop where
  unbroken : newline ∉ text
  nonzero : (0 : UInt8) ∉ text

variable {size : Nat} {text rest : Bytes}

theorem cString_eq (nonzero : (0 : UInt8) ∉ text) : cString text = text := by
  rw [cString, List.takeWhile_eq_self_iff]
  intro byte member
  rw [decide_eq_true_eq]
  exact fun same => nonzero (same ▸ member)

theorem cString_before (nonzero : (0 : UInt8) ∉ text) (rest : Bytes) : cString (text ++ 0 :: rest) = text := by
  have all : ∀ byte ∈ text, decide (byte ≠ 0) = true := by
    intro byte member
    rw [decide_eq_true_eq]
    rintro rfl
    exact nonzero member
  rw [cString, List.takeWhile_append_of_pos all, List.takeWhile_cons_of_neg (by decide), List.append_nil]

theorem cString_padded (nonzero : (0 : UInt8) ∉ text) (count : Nat) : cString (text ++ List.replicate count 0) = text := by
  cases count with
  | zero => rw [List.replicate_zero, List.append_nil, cString_eq nonzero]
  | succ count => rw [List.replicate_succ, cString_before nonzero]

theorem cString_nonzero (text : Bytes) : (0 : UInt8) ∉ cString text := by
  intro member
  have kept := List.mem_takeWhile_imp member
  simp at kept

theorem cString_closed (lineal : Lineal text) : cString (text ++ [newline]) = text ++ [newline] := by
  apply cString_eq
  rw [List.mem_append, List.mem_singleton, not_or]
  exact ⟨lineal.nonzero, by decide⟩

theorem splitNewlineSymbol_closed (text : Bytes) : splitNewlineSymbol (text ++ [newline]) = text := by
  rw [splitNewlineSymbol, if_pos List.getLast?_concat, List.dropLast_concat]

theorem splitNewlineSymbol_eq (unbroken : newline ∉ text) : splitNewlineSymbol text = text := by
  rw [splitNewlineSymbol, if_neg]
  exact fun last => unbroken (List.mem_of_getLast? last)

theorem fgetsStrings_nil (size : Nat) : fgetsStrings size [] = [] := rfl

theorem fgetsStrings_closed (lineal : Lineal text) (short : text.length < size - 1) (rest : Bytes) :
    fgetsStrings size (text ++ newline :: rest) = (text ++ [newline]) :: fgetsStrings size rest := by
  rw [fgetsStrings, pieces_closed lineal.unbroken short, List.map_cons, cString_closed lineal]
  rfl

theorem fgetsStrings_last (lineal : Lineal text) (filled : text ≠ []) (short : text.length < size - 1) :
    fgetsStrings size text = [text] := by
  rw [fgetsStrings, pieces_last lineal.unbroken filled short, List.map_singleton, cString_eq lineal.nonzero]

/-- A line without room for its newline leaves the newline to the next call. -/
theorem fgetsStrings_full (lineal : Lineal text) (positive : 0 < size - 1) (exact : text.length = size - 1) (rest : Bytes) :
    fgetsStrings size (text ++ rest) = text :: fgetsStrings size rest := by
  rw [fgetsStrings, pieces_full positive lineal.unbroken exact, List.map_cons, cString_eq lineal.nonzero]
  rfl

/-- What does not fit the buffer is left to the next calls. -/
theorem fgetsStrings_long (positive : 0 < size - 1) (unbroken : newline ∉ text) (long : size - 1 ≤ text.length)
    (rest : Bytes) :
    fgetsStrings size (text ++ rest) =
      cString (text.take (size - 1)) :: fgetsStrings size (text.drop (size - 1) ++ rest) := by
  have front : newline ∉ text.take (size - 1) := fun member => unbroken (List.mem_of_mem_take member)
  conv_lhs => rw [← List.take_append_drop (size - 1) text, List.append_assoc]
  rw [fgetsStrings, pieces_full positive front (List.length_take_of_le long), List.map_cons]
  rfl

/-- A line is read apart from what is behind it. -/
theorem fgetsStrings_line (positive : 0 < size - 1) (unbroken : newline ∉ text) (rest : Bytes) :
    fgetsStrings size (text ++ newline :: rest) = fgetsStrings size (text ++ [newline]) ++ fgetsStrings size rest := by
  induction count : text.length using Nat.strongRecOn generalizing text with
  | ind count ih =>
      rcases Nat.lt_or_ge text.length (size - 1) with short | long
      · have alone : pieces newline (size - 1) (text ++ [newline]) = [text ++ [newline]] := pieces_closed unbroken short []
        rw [fgetsStrings, pieces_closed unbroken short, List.map_cons, fgetsStrings, alone]
        rfl
      · have behind : newline ∉ text.drop (size - 1) := fun member => unbroken (List.mem_of_mem_drop member)
        have shorter : (text.drop (size - 1)).length < text.length := by
          rw [List.length_drop]
          omega
        rw [fgetsStrings_long positive unbroken long, fgetsStrings_long positive unbroken long, ih _ (count ▸ shorter) behind rfl,
          List.cons_append]

/-- A string that is read is no longer than the buffer or the stream. -/
theorem length_le_of_mem_fgetsStrings {stream : Bytes} (positive : 0 < size - 1) (member : text ∈ fgetsStrings size stream) :
    text.length ≤ size - 1 ∧ text.length ≤ stream.length := by
  obtain ⟨piece, among, rfl⟩ := List.mem_map.mp member
  have cut : Cut newline (size - 1) stream (pieces newline (size - 1) stream) := cut_pieces positive stream
  have within : (cString piece).length ≤ piece.length := (List.takeWhile_prefix _).length_le
  refine ⟨Nat.le_trans within (cut.length_le piece among), Nat.le_trans within ?_⟩
  conv_rhs => rw [← cut.flatten]
  exact (List.sublist_flatten_of_mem among).length_le

theorem fgetsStrings_ne_nil {stream : Bytes} (positive : 0 < size - 1) (filled : stream ≠ []) :
    fgetsStrings size stream ≠ [] := by
  intro none
  have flat : (pieces newline (size - 1) stream).flatten = stream := (cut_pieces positive stream).flatten
  rw [List.map_eq_nil_iff.mp none] at flat
  exact filled flat.symm

/-- Lines as a program prints them. -/
def printLines (lines : List Bytes) : Bytes := lines.flatMap fun line => line ++ [newline]

theorem printLines_cons (line : Bytes) (lines : List Bytes) :
    printLines (line :: lines) = line ++ newline :: printLines lines := by
  rw [printLines, List.flatMap_cons, List.append_assoc]
  rfl

/-- Lines that fit the buffer are read one by one. -/
theorem fgetsStrings_printLines {lines : List Bytes}
    (fits : ∀ line ∈ lines, Lineal line ∧ line.length < size - 1) :
    fgetsStrings size (printLines lines) = lines.map fun line => line ++ [newline] := by
  induction lines with
  | nil => rfl
  | cons line lines ih =>
      obtain ⟨lineal, short⟩ := fits line List.mem_cons_self
      rw [printLines_cons, fgetsStrings_closed lineal short, ih fun other member => fits other (List.mem_cons_of_mem _ member),
        List.map_cons]

end GalaGopher.Text
