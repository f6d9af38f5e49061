import GalaGopher.Text.Bytes
import Mathlib.Algebra.Group.Int.Defs

namespace GalaGopher.Text

def isDigit (byte : UInt8) : Bool := 48 ≤ byte && byte ≤ 57

/-- Digits without a needless zero in front. -/
structure Whole (text : Bytes) : Prop where
  digits : ∀ byte ∈ text, isDigit byte
  nonempty : text ≠ []
  leading : text.head? = some 48 → text = [48]

def digitByte (character : Char) : UInt8 := UInt8.ofNat character.toNat

theorem digitByte_toNat {character : Char} (digit : character.isDigit) :
    (digitByte character).toNat = character.toNat ∧ 48 ≤ character.toNat ∧ character.toNat ≤ 57 := by
  have bounds : 48 ≤ character.toNat ∧ character.toNat ≤ 57 := by
    rw [Char.isDigit, Bool.and_eq_true, decide_eq_true_eq, decide_eq_true_eq] at digit
    exact ⟨UInt32.le_iff_toNat_le.mp digit.1, UInt32.le_iff_toNat_le.mp digit.2⟩
  refine ⟨?_, bounds⟩
  rw [digitByte, UInt8.toNat_ofNat', Nat.mod_eq_of_lt (by omega)]

theorem isDigit_digitByte {character : Char} (digit : character.isDigit) : isDigit (digitByte character) := by
  obtain ⟨value, bounds⟩ := digitByte_toNat digit
  rw [isDigit, Bool.and_eq_true, decide_eq_true_eq, decide_eq_true_eq, UInt8.le_iff_toNat_le,
    UInt8.le_iff_toNat_le, value]
  exact bounds

theorem toDigits_leading (number : Nat) :
    ((Nat.toDigits 10 number).map digitByte).head? = some 48 → number = 0 := by
  induction number using Nat.strongRecOn with
  | ind number ih =>
      rw [Nat.toDigits_eq_if (by decide)]
      split
      · rename_i small
        intro leading
        rw [List.map_singleton, List.head?_cons, Option.some.injEq, digitByte,
          Nat.toNat_digitChar_of_lt_ten small] at leading
        have value := congrArg UInt8.toNat leading
        rw [UInt8.toNat_ofNat', Nat.mod_eq_of_lt (by omega)] at value
        have exact : 48 + number = 48 := value
        omega
      · rename_i large
        intro leading
        have front : (Nat.toDigits 10 (number / 10)).map digitByte ≠ [] := by
          rw [ne_eq, List.map_eq_nil_iff]
          exact Nat.toDigits_ne_nil
        rw [List.map_append, List.head?_append_of_ne_nil _ front] at leading
        have zero := ih (number / 10) (by omega) leading
        omega

theorem whole_toDigits (number : Nat) : Whole ((Nat.toDigits 10 number).map digitByte) where
  digits byte member := by
    obtain ⟨character, digit, rfl⟩ := List.mem_map.mp member
    exact isDigit_digitByte (Nat.isDigit_of_mem_toDigits (by decide) (by decide) digit)
  nonempty := by
    rw [ne_eq, List.map_eq_nil_iff]
    exact Nat.toDigits_ne_nil
  leading starts := by
    rw [toDigits_leading number starts]
    rfl

/-- A printed integer is a whole number, perhaps behind a minus sign. -/
theorem printed_whole (number : Int) : ∃ whole, Whole whole ∧
    (ascii (toString number) = whole ∨ ascii (toString number) = 45 :: whole) := by
  rw [Int.toString_eq_repr, Int.repr_eq_if]
  split
  · refine ⟨_, whole_toDigits number.toNat, .inl ?_⟩
    rw [ascii, Nat.toList_repr]
    rfl
  · refine ⟨_, whole_toDigits (-number).toNat, .inr ?_⟩
    rw [ascii, String.toList_append, List.map_append, Nat.toList_repr]
    rfl

theorem printed_ne_nil (number : Int) : ascii (toString number) ≠ [] := by
  obtain ⟨whole, shape, printed⟩ := printed_whole number
  rcases printed with plain | negative
  · rw [plain]
    exact shape.nonempty
  · rw [negative]
    exact List.cons_ne_nil _ _

theorem printed_bytes {number : Int} {byte : UInt8} (member : byte ∈ ascii (toString number)) :
    byte = 45 ∨ isDigit byte := by
  obtain ⟨whole, shape, printed⟩ := printed_whole number
  rcases printed with plain | negative
  · exact .inr (shape.digits byte (plain ▸ member))
  · rw [negative] at member
    rcases List.mem_cons.mp member with sign | later
    · exact .inl sign
    · exact .inr (shape.digits byte later)

theorem printed_free {byte : UInt8} (neither : ¬ (byte = 45 ∨ isDigit byte)) (number : Int) :
    byte ∉ ascii (toString number) := fun member => neither (printed_bytes member)

theorem printed_small (number : Int) : (ascii (toString number)).all (· < 0x80) := by
  rw [List.all_eq_true]
  intro byte member
  rw [decide_eq_true_eq]
  rcases printed_bytes member with sign | digit
  · exact sign ▸ by decide
  · rw [isDigit, Bool.and_eq_true, decide_eq_true_eq, decide_eq_true_eq] at digit
    exact UInt8.lt_of_le_of_lt digit.2 (by decide)

theorem toDigits_bytes_length {number width : Nat} (positive : 0 < width) (small : number < 10 ^ width) :
    ((Nat.toDigits 10 number).map digitByte).length ≤ width := by
  rw [List.length_map]
  exact (Nat.length_toDigits_le_iff (by decide) positive).mpr small

theorem printed_nat (number : Nat) : ascii (toString number) = (Nat.toDigits 10 number).map digitByte := by
  rw [ascii, Nat.toString_eq_ofList_toDigits, String.toList_ofList]
  rfl

theorem whole_printed (number : Nat) : Whole (ascii (toString number)) := by
  rw [printed_nat]
  exact whole_toDigits number

theorem length_printed_le {number width : Nat} (positive : 0 < width) (small : number < 10 ^ width) :
    (ascii (toString number)).length ≤ width := by
  rw [printed_nat]
  exact toDigits_bytes_length positive small

/-- A number can be read back from its text. -/
theorem printed_nat_injective {left right : Nat} (same : ascii (toString left) = ascii (toString right)) :
    left = right := by
  have read : ∀ number : Nat,
      ((Nat.toDigits 10 number).map digitByte).map (fun byte => Char.ofNat byte.toNat) = Nat.toDigits 10 number := by
    intro number
    have back : ∀ character ∈ Nat.toDigits 10 number, Char.ofNat (digitByte character).toNat = character := by
      intro character member
      have digit := Nat.isDigit_of_mem_toDigits (by decide) (by decide) member
      rw [(digitByte_toNat digit).1, Char.ofNat_toNat]
    rw [List.map_map]
    exact (List.map_congr_left back).trans (List.map_id' _)
  rw [printed_nat, printed_nat] at same
  have digits := congrArg (List.map fun byte => Char.ofNat byte.toNat) same
  rw [read, read] at digits
  have values := congrArg (fun text => Nat.ofDigitChars 10 text 0) digits
  rwa [Nat.ofDigitChars_ten_toDigits, Nat.ofDigitChars_ten_toDigits] at values

/-- An `int` takes at most a sign and ten digits. -/
theorem printed_int_length {number : Int} (bounds : -2 ^ 31 ≤ number ∧ number < 2 ^ 31) :
    (ascii (toString number)).length ≤ 11 := by
  rw [Int.toString_eq_repr, Int.repr_eq_if]
  split
  · have short := @toDigits_bytes_length number.toNat 10 (by decide) (by omega)
    rw [ascii, Nat.toList_repr]
    exact Nat.le_trans short (by decide)
  · have short := @toDigits_bytes_length (-number).toNat 10 (by decide) (by omega)
    rw [ascii, String.toList_append, List.map_append, Nat.toList_repr, List.length_append]
    exact Nat.add_le_add_left short 1

end GalaGopher.Text
