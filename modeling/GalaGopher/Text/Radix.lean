import GalaGopher.Text.Bytes
import Mathlib.Data.Nat.Digits.Defs
import Mathlib.Tactic.Ring

namespace GalaGopher.Text

/-- A digit of either case. -/
def digitValue (byte : UInt8) : Option Nat :=
  if 48 ≤ byte ∧ byte ≤ 57 then some (byte.toNat - 48)
  else if 65 ≤ byte ∧ byte ≤ 70 then some (byte.toNat - 55)
  else if 97 ≤ byte ∧ byte ≤ 102 then some (byte.toNat - 87)
  else none

/-- The number that the digits behind `sofar` make of it. -/
def readDigits (base sofar : Nat) : Bytes → Option Nat
  | [] => some sofar
  | byte :: rest =>
      match digitValue byte with
      | none => none
      | some digit => if digit < base then readDigits base (sofar * base + digit) rest else none

def readNumber (base : Nat) (text : Bytes) : Option Nat := if text = [] then none else readDigits base 0 text

variable {base sofar : Nat} {front rest : Bytes}

theorem readDigits_append (base sofar : Nat) (front rest : Bytes) :
    readDigits base sofar (front ++ rest) = (readDigits base sofar front).bind fun number => readDigits base number rest := by
  induction front generalizing sofar with
  | nil => rfl
  | cons byte front ih =>
      rw [List.cons_append, readDigits, readDigits]
      cases digitValue byte with
      | none => rfl
      | some digit =>
          by_cases below : digit < base
          · simp only [if_pos below, ih]
          · simp only [if_neg below, Option.bind_none]

theorem readDigits_zeros (positive : 0 < base) (count : Nat) (rest : Bytes) :
    readDigits base 0 (List.replicate count 48 ++ rest) = readDigits base 0 rest := by
  induction count with
  | zero => rfl
  | succ count ih =>
      have zero : digitValue 48 = some 0 := by decide
      rw [List.replicate_succ, List.cons_append, readDigits, zero]
      simp only [if_pos positive, Nat.zero_mul, Nat.zero_add]
      exact ih

/-- Digits written by a table read back, the last one of the list first. -/
theorem readDigits_ofDigits {byteOf : Nat → UInt8} (known : ∀ digit < base, digitValue (byteOf digit) = some digit)
    {digits : List Nat} (below : ∀ digit ∈ digits, digit < base) (sofar : Nat) :
    readDigits base sofar (digits.reverse.map byteOf) =
      some (sofar * base ^ digits.length + Nat.ofDigits base digits) := by
  induction digits with
  | nil => simp [readDigits]
  | cons digit digits ih =>
      rw [List.forall_mem_cons] at below
      have last : readDigits base (sofar * base ^ digits.length + Nat.ofDigits base digits) [byteOf digit] =
          some ((sofar * base ^ digits.length + Nat.ofDigits base digits) * base + digit) := by
        rw [readDigits, known digit below.1]
        simp only [if_pos below.1, readDigits]
      rw [List.reverse_cons, List.map_append, readDigits_append, ih below.2, List.map_singleton, Option.bind_some, last,
        List.length_cons, Nat.ofDigits_cons, Option.some.injEq]
      ring

end GalaGopher.Text
