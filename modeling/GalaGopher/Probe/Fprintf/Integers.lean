import GalaGopher.Probe.Fprintf.Reading
import Mathlib.Tactic.IntervalCases

namespace GalaGopher.Probe.Fprintf.Standard

open Text

theorem toDigits_eq {base number : Nat} (valid : 1 < base) (nonzero : number ≠ 0) :
    Nat.toDigits base number = (Nat.digits base number).reverse.map Nat.digitChar := by
  induction number using Nat.strongRecOn with
  | ind number ih =>
      rw [Nat.toDigits_eq_if valid, Nat.digits_def' valid (Nat.pos_of_ne_zero nonzero), List.reverse_cons,
        List.map_append]
      split
      case isTrue small =>
          rw [Nat.div_eq_of_lt small, Nat.mod_eq_of_lt small]
          simp
      case isFalse large =>
          have shorter : number / base < number := Nat.div_lt_self (Nat.pos_of_ne_zero nonzero) valid
          have more : number / base ≠ 0 := Nat.ne_of_gt (Nat.div_pos (by omega) (by omega))
          rw [ih _ shorter more]
          rfl

/-- One digit by the table and by the standard. -/
theorem digit_eq (letter : Integer) :
    ∀ digit < letter.base,
      digits.getD digit 0 ||| (if letter = .x then 32 else 0) =
        Text.digitByte (if letter = .X then (Nat.digitChar digit).toUpper else Nat.digitChar digit) := by
  cases letter <;> decide

theorem base_valid (letter : Integer) : 2 ≤ letter.base ∧ letter.base ≤ 16 := by
  cases letter <;> decide

theorem figures_zero (letter : Integer) : figures letter 0 = [48] := by
  cases letter <;> decide

theorem figures_eq (letter : Integer) (flags : Flags) (small : flags.small = (letter = .x)) (number : Nat) :
    (tmpOf flags letter.base number).reverse = figures letter number := by
  by_cases zero : number = 0
  · rw [zero, figures_zero]
    rfl
  · rw [tmpOf, if_neg zero, figures, toDigits_eq (base_valid letter).1 zero, List.map_map, ← List.map_reverse]
    apply List.map_congr_left
    intro digit member
    have below := Nat.digits_lt_base (base_valid letter).1 (List.mem_reverse.mp member)
    have locase : flags.locase = if letter = .x then 32 else 0 := by
      simp [Flags.locase, small]
    rw [locase, digit_eq letter digit below]
    rfl

theorem length_figures (letter : Integer) (number : Nat) :
    (figures letter number).length = Nat.log letter.base number + 1 := by
  rw [← figures_eq letter { small := letter = .x } (by simp) number, List.length_reverse,
    length_tmpOf _ (base_valid letter).1]

theorem digit_ne_zero (letter : Integer) :
    ∀ digit < letter.base, digit ≠ 0 →
      Text.digitByte (if letter = .X then (Nat.digitChar digit).toUpper else Nat.digitChar digit) ≠ 48 := by
  cases letter <;> decide

/-- Only zero starts with a zero. -/
theorem head_figures (letter : Integer) {number : Nat} (nonzero : number ≠ 0) :
    (figures letter number).head? ≠ some 48 := by
  have filled : Nat.digits letter.base number ≠ [] := Nat.digits_ne_nil_iff_ne_zero.mpr nonzero
  have last := Nat.getLast_digit_ne_zero letter.base nonzero
  have below := Nat.digits_lt_base (base_valid letter).1 (List.getLast_mem filled)
  rw [figures, toDigits_eq (base_valid letter).1 nonzero, List.map_map, List.head?_map, List.head?_reverse,
    List.getLast?_eq_some_getLast filled, Option.map_some, ne_eq, Option.some.injEq]
  exact digit_ne_zero letter _ below last

theorem zero_not_mem_figures (letter : Integer) (number : Nat) : 0 ∉ figures letter number := by
  have nonzero : ∀ digit < letter.base,
      Text.digitByte (if letter = .X then (Nat.digitChar digit).toUpper else Nat.digitChar digit) ≠ 0 := by
    cases letter <;> decide
  by_cases zero : number = 0
  · rw [zero, figures_zero]
    decide
  · rw [figures, toDigits_eq (base_valid letter).1 zero, List.map_map]
    intro member
    obtain ⟨digit, inside, same⟩ := List.mem_map.mp member
    exact nonzero digit (Nat.digits_lt_base (base_valid letter).1 (List.mem_reverse.mp inside)) same

section Code

variable {directive : Directive} {letter : Integer} {bits : UInt64}

theorem value_signed (signed : letter.signed = true) :
    directive.value letter bits = (directive.length.num letter.signed bits).toInt64.toInt := by
  unfold Directive.value Length.num
  rw [signed]
  cases directive.length <;> simp

theorem value_unsigned (unsigned : letter.signed = false) :
    directive.value letter bits = (directive.length.num letter.signed bits).toNat := by
  unfold Directive.value Length.num
  rw [unsigned]
  cases directive.length <;> simp

/-- The flags that `__number` gets. -/
def Directive.integerFlags (directive : Directive) (letter : Integer) : Flags :=
  { directive.codeFlags with sign := letter.signed, small := letter = .x }

/-- What `#` writes before the digits, whatever they are. -/
def Directive.specialBytes (directive : Directive) (letter : Integer) : Bytes :=
  if directive.has .sharp then
    match letter with
    | .o => [48]
    | .x => [48, 120]
    | .X => [48, 88]
    | .d | .i | .u => []
  else
    []

theorem specialOf_eq (directive : Directive) (letter : Integer) :
    specialOf (directive.integerFlags letter) letter.base = directive.specialBytes letter := by
  have special : (directive.integerFlags letter).special = directive.has .sharp := rfl
  have locase : (directive.integerFlags letter).locase = if letter = .x then 32 else 0 := by
    simp [Flags.locase, Directive.integerFlags]
  unfold specialOf Directive.specialBytes
  rw [special, locase]
  cases directive.has .sharp with
  | false => rfl
  | true => cases letter <;> decide

theorem magnitude_eq :
    magnitude (directive.integerFlags letter) (directive.length.num letter.signed bits) =
      (directive.value letter bits).natAbs := by
  unfold magnitude
  cases signed : letter.signed with
  | true =>
      rw [value_signed signed, signed]
      exact if_pos signed
  | false =>
      rw [value_unsigned signed, signed]
      exact if_neg (Bool.eq_false_iff.mp signed)

theorem signText_eq :
    signText (directive.integerFlags letter) (directive.length.num letter.signed bits) =
      directive.signBytes letter (directive.value letter bits) := by
  unfold signText Directive.signBytes
  have same : (directive.integerFlags letter).sign = letter.signed := rfl
  rw [same]
  cases signed : letter.signed with
  | true =>
      have negative : (directive.length.num true bits).toInt64 < 0 ↔ directive.value letter bits < 0 := by
        rw [value_signed signed, signed]
        exact Int64.lt_iff_toInt_lt
      simp only [if_true, negative]
      rfl
  | false => rfl

theorem opposite_iff :
    ((directive.integerFlags letter).sign = true → (directive.length.num letter.signed bits).toInt64 ≠ Int64.minValue) ↔
      directive.value letter bits ≠ -2 ^ 63 := by
  cases signed : letter.signed with
  | true =>
      have same : (directive.integerFlags letter).sign = true := signed
      rw [value_signed signed, signed, forall_prop_of_true same, ne_eq, ne_eq, ← Int64.toInt_inj]
      exact Iff.rfl
  | false =>
      have unsigned : ¬ (directive.integerFlags letter).sign = true := Bool.eq_false_iff.mp signed
      refine iff_of_true (fun sign => absurd sign unsigned) ?_
      rw [value_unsigned signed]
      omega

/-- What `__number` writes for a directive. -/
theorem number_directive (width precision : Int) (opposite : directive.value letter bits ≠ -2 ^ 63) :
    let shown := figures letter (directive.value letter bits).natAbs
    number (directive.length.num letter.signed bits) letter.base width precision (directive.integerFlags letter) =
      .ok (justified directive.left (directive.has .zero) width.toNat
        (directive.signBytes letter (directive.value letter bits) ++ directive.specialBytes letter)
        (List.replicate (precision.toNat - shown.length) 48 ++ shown)) := by
  have written := number_eq (base_valid letter) (opposite_iff.mpr opposite) width precision
  have small : (directive.integerFlags letter).small = decide (letter = .x) := rfl
  have shown := figures_eq letter (directive.integerFlags letter) (by simp [small])
    (directive.value letter bits).natAbs
  simp only [magnitude_eq, signText_eq, specialOf_eq] at written
  rw [← List.length_reverse, shown] at written
  exact written

end Code

section Agreement

variable {directive : Directive} {letter : Integer} {value : Int}

/-- The text that `__number` makes, where it makes one. -/
def Directive.numberText (directive : Directive) (letter : Integer) (width : Nat) (value : Int) : Bytes :=
  let shown := figures letter value.natAbs
  justified directive.left (directive.has .zero) width
    (directive.signBytes letter value ++ directive.specialBytes letter)
    (List.replicate (directive.precision.value.getD 0 - shown.length) 48 ++ shown)

/-- When an integer is printed as the standard says: it has an opposite, it is
no zero without digits, zeros fill no field that a precision keeps them from,
and `#` finds a number to which it adds what `__number` adds. -/
structure Directive.IntegerAgrees (directive : Directive) (letter : Integer) (value : Int) : Prop where
  opposite : value ≠ -2 ^ 63
  digits : ¬ (value = 0 ∧ directive.precision.value = some 0)
  fill : directive.has .zero = true → directive.left = false → directive.precision.value ≠ none →
    directive.width.value ≤ (directive.integerText letter 0 value).length
  hexadecimal : directive.has .sharp = true → letter = .x ∨ letter = .X → value ≠ 0
  octal : directive.has .sharp = true → letter = .o →
    if value = 0 then
      directive.precision.value = none ∧ directive.has .zero = true ∧ directive.left = false ∧ 2 ≤ directive.width.value
    else
      directive.precision.value.getD 0 ≤ (figures letter value.natAbs).length

theorem justified_fill_iff (left fill bare : Bool) (width : Nat) (head body : Bytes) :
    justified left fill width head body = justified left (fill && bare) width head body ↔
      (fill = true → left = false → bare = false → width ≤ head.length + body.length) := by
  cases bare with
  | true => simp
  | false =>
      rw [Bool.and_false]
      constructor
      · intro same filled right _
        have zeros := congrArg (List.count 48) same
        rw [count_justified, count_justified, if_pos ⟨filled, by simp [right]⟩,
          if_neg fun filled => absurd filled.1 Bool.false_ne_true] at zeros
        omega
      · intro full
        cases fill with
        | false => rfl
        | true => cases left with
          | true => rfl
          | false => exact justified_fill (.inr (full rfl rfl rfl))

theorem justified_zero_ne {left fill bare : Bool} {width : Nat} {body : Bytes} (kept : bare = false) :
    justified left fill width [48] body ≠ justified left (fill && bare) width [] body := by
  intro same
  have zeros := congrArg (List.count 48) same
  rw [kept, Bool.and_false, count_justified, count_justified,
    @if_neg (false = true ∧ ¬ left = true) _ fun filled => absurd filled.1 Bool.false_ne_true] at zeros
  simp only [List.count_singleton_self, List.count_nil] at zeros
  omega

theorem precise_eq (letter : Integer) {precision : Option Nat} {number : Nat}
    (shown : ¬ (number = 0 ∧ precision = some 0)) :
    precise letter precision number =
      List.replicate (precision.getD 0 - (figures letter number).length) 48 ++ figures letter number := by
  have long := length_figures letter number
  rw [precise, if_neg shown]
  cases precision with
  | none =>
      rw [Option.getD_none, Option.getD_none, show 1 - (figures letter number).length = 0 by omega, Nat.zero_sub]
  | some figures => rfl

theorem precise_nothing (letter : Integer) : precise letter (some 0) 0 = [] := by
  cases letter <;> decide

theorem signBytes_count (directive : Directive) (letter : Integer) (value : Int) :
    (directive.signBytes letter value).count 48 = 0 := by
  unfold Directive.signBytes
  split
  case isTrue =>
      split
      case isTrue => decide
      case isFalse =>
          split
          case isTrue => decide
          case isFalse => split <;> decide
  case isFalse => rfl

theorem signBytes_unsigned (unsigned : letter.signed = false) : directive.signBytes letter value = [] := by
  rw [Directive.signBytes, unsigned]
  rfl

/-- Without `#`, or with one that adds the same. -/
theorem numberText_eq_iff_of_same (special : directive.specialBytes letter = directive.radixBytes letter value)
    (digits : directive.integerDigits letter value = precise letter directive.precision.value value.natAbs)
    (shown : ¬ (value = 0 ∧ directive.precision.value = some 0)) :
    directive.numberText letter directive.width.value value =
        directive.integerText letter directive.width.value value ↔
      (directive.has .zero = true → directive.left = false → directive.precision.value ≠ none →
        directive.width.value ≤ (directive.integerText letter 0 value).length) := by
  have body := @precise_eq letter directive.precision.value value.natAbs (by simpa using shown)
  have bare : directive.precision.value.isNone = false ↔ directive.precision.value ≠ none := by
    cases directive.precision.value <;> simp
  unfold Directive.numberText Directive.integerText
  rw [length_justified, Nat.zero_max, special, digits, body, justified_fill_iff, bare]

/-- A zero that the standard prints without digits. -/
theorem numberText_ne_of_nothing (width : Nat) (nothing : directive.precision.value = some 0) :
    directive.numberText letter width 0 ≠ directive.integerText letter width 0 := by
  intro same
  have zeros := congrArg (List.count 48) same
  have radix : directive.radixBytes letter 0 = [] := if_neg fun sharp => sharp.2 rfl
  have sign := signBytes_count directive letter 0
  unfold Directive.numberText Directive.integerText Directive.integerDigits at zeros
  simp only [Int.natAbs_zero, nothing, precise_nothing, figures_zero, radix, Option.isNone_some, Bool.and_false,
    Option.getD_some, List.append_nil, count_justified, List.count_append, sign, Bool.false_eq_true, false_and,
    if_false] at zeros
  by_cases sharp : directive.has .sharp = true ∧ letter = .o
  · obtain ⟨sharp, rfl⟩ := sharp
    have special : directive.specialBytes .o = [48] := if_pos sharp
    simp [sharp, special, octal] at zeros
    omega
  · simp [sharp] at zeros

theorem precise_zero_bytes {precision : Option Nat} {byte : UInt8} (member : byte ∈ precise letter precision 0) :
    byte = 48 := by
  unfold precise at member
  split at member
  case isTrue => simp at member; exact member.2
  case isFalse =>
      simp only [figures_zero, List.mem_append, List.mem_replicate, List.mem_singleton] at member
      exact member.elim And.right id

/-- `0x` before a zero -/
theorem numberText_ne_of_radix (width : Nat) (sharp : directive.has .sharp = true) (hexadecimal : letter = .x ∨ letter = .X) :
    directive.numberText letter width 0 ≠ directive.integerText letter width 0 := by
  intro same
  obtain ⟨byte, member, other, notOctal⟩ : ∃ byte : UInt8, byte ∈ directive.specialBytes letter ∧
      (byte ≠ 32 ∧ byte ≠ 48) ∧ letter ≠ .o ∧ letter.signed = false := by
    unfold Directive.specialBytes
    rw [if_pos sharp]
    rcases hexadecimal with rfl | rfl
    · exact ⟨120, by decide, by decide, by decide⟩
    · exact ⟨88, by decide, by decide, by decide⟩
  have there : byte ∈ directive.numberText letter width 0 := mem_justified (.inl (List.mem_append_right _ member))
  rw [same] at there
  unfold Directive.integerText Directive.integerDigits at there
  rw [if_neg fun octal => notOctal.1 octal.2, signBytes_unsigned notOctal.2] at there
  rcases mem_of_mem_justified there with space | zero | head | body
  · exact other.1 space
  · exact other.2 zero
  · simp [Directive.radixBytes] at head
  · exact other.2 (precise_zero_bytes body)

section Octal

variable (sharp : directive.has .sharp = true)
include sharp

theorem numberText_octal (width : Nat) (value : Int) :
    directive.numberText .o width value =
      justified directive.left (directive.has .zero) width [48]
        (List.replicate (directive.precision.value.getD 0 - (figures .o value.natAbs).length) 48 ++
          figures .o value.natAbs) := by
  have special : directive.specialBytes .o = [48] := if_pos sharp
  rw [Directive.numberText, signBytes_unsigned rfl, special]
  rfl

theorem integerText_octal (width : Nat) (value : Int) :
    directive.integerText .o width value =
      justified directive.left (directive.has .zero && directive.precision.value.isNone) width []
        (octal (precise .o directive.precision.value value.natAbs)) := by
  have radix : directive.radixBytes .o value = [] := by
    unfold Directive.radixBytes
    split <;> rfl
  rw [Directive.integerText, signBytes_unsigned rfl, radix, Directive.integerDigits, if_pos ⟨sharp, rfl⟩]
  rfl

/-- A number with no digit to spare gets its zero from either. -/
theorem octal_short_iff {value : Int} (nonzero : value ≠ 0)
    (short : directive.precision.value.getD 0 ≤ (figures .o value.natAbs).length) :
    directive.numberText .o directive.width.value value = directive.integerText .o directive.width.value value ↔
      (directive.has .zero = true → directive.left = false → directive.precision.value ≠ none →
        directive.width.value ≤ (directive.integerText .o 0 value).length) := by
  have magnitude : value.natAbs ≠ 0 := Int.natAbs_ne_zero.mpr nonzero
  have bare : directive.precision.value.isNone = false ↔ directive.precision.value ≠ none := by
    cases directive.precision.value <;> simp
  have digits : octal (precise .o directive.precision.value value.natAbs) = 48 :: figures .o value.natAbs := by
    rw [precise_eq .o fun none => magnitude none.1, Nat.sub_eq_zero_of_le short, List.replicate_zero, List.nil_append,
      octal, if_neg (head_figures .o magnitude)]
  have moved := justified_zeros directive.left (directive.has .zero) directive.width.value 1 (figures .o value.natAbs)
  rw [numberText_octal sharp, integerText_octal sharp, integerText_octal sharp, length_justified, Nat.zero_max,
    Nat.sub_eq_zero_of_le short, digits, List.replicate_zero, List.nil_append]
  rw [List.replicate_one, List.singleton_append] at moved
  rw [moved, justified_fill_iff, bare]

/-- A number that the precision gave a zero gets one more. -/
theorem octal_long_ne {value : Int} (nonzero : value ≠ 0)
    (long : (figures .o value.natAbs).length < directive.precision.value.getD 0) (width : Nat) :
    directive.numberText .o width value ≠ directive.integerText .o width value := by
  have magnitude : value.natAbs ≠ 0 := Int.natAbs_ne_zero.mpr nonzero
  have bare : directive.precision.value.isNone = false := by
    cases precision : directive.precision.value with
    | none => simp [precision] at long
    | some figures => rfl
  rw [numberText_octal sharp, integerText_octal sharp, precise_eq .o fun none => magnitude none.1]
  obtain ⟨count, more⟩ := Nat.exists_eq_add_of_lt long
  have zeros : directive.precision.value.getD 0 - (figures .o value.natAbs).length = count + 1 := by omega
  rw [zeros, octal, if_pos (by rfl)]
  exact justified_zero_ne bare

/-- A zero gets a second one, unless zeros fill the field. -/
theorem octal_zero_iff (shown : directive.precision.value ≠ some 0) (width : Nat) :
    directive.numberText .o width 0 = directive.integerText .o width 0 ↔
      directive.precision.value = none ∧ directive.has .zero = true ∧ directive.left = false ∧ 2 ≤ width := by
  rw [numberText_octal sharp, integerText_octal sharp, Int.natAbs_zero, precise_eq .o fun none => shown none.2, figures_zero]
  cases precision : directive.precision.value with
  | none =>
      have alone : octal (List.replicate ((none : Option Nat).getD 0 - [(48 : UInt8)].length) 48 ++ [48]) = [48] := rfl
      rw [alone, Option.isNone_none, Bool.and_true, Option.getD_none, Nat.zero_sub, List.replicate_zero,
        List.nil_append]
      constructor
      · intro same
        have zeros := congrArg (List.count 48) same
        rw [count_justified, count_justified] at zeros
        by_cases filled : directive.has .zero = true ∧ ¬ directive.left = true
        · simp only [if_pos filled, List.count_singleton_self, List.count_nil, List.length_singleton,
            List.length_nil] at zeros
          exact ⟨rfl, filled.1, Bool.not_eq_true _ ▸ filled.2, by omega⟩
        · rw [if_neg filled, if_neg filled] at zeros
          simp at zeros
      · rintro ⟨_, filled, right, wide⟩
        obtain ⟨count, rfl⟩ := Nat.exists_eq_add_of_le wide
        rw [filled, right, justified_filled, justified_filled]
        simp [List.replicate_succ, ← List.replicate_succ', Nat.add_comm 2 count]
  | some figures =>
      have more : figures ≠ 0 := fun none => shown (by rw [precision, none])
      obtain ⟨count, rfl⟩ := Nat.exists_eq_succ_of_ne_zero more
      have leading : (List.replicate count (48 : UInt8) ++ [48]).head? = some 48 := by
        cases count <;> rfl
      simp only [Option.getD_some, List.length_singleton, Nat.succ_sub_one, octal, if_pos leading, reduceCtorEq,
        false_and, iff_false]
      exact justified_zero_ne rfl

end Octal

/-- Where `#` adds nothing else, only the zeros of the field may differ. -/
theorem integerAgrees_iff_of_same (opposite : value ≠ -2 ^ 63)
    (special : directive.specialBytes letter = directive.radixBytes letter value)
    (digits : directive.integerDigits letter value = precise letter directive.precision.value value.natAbs)
    (shown : ¬ (value = 0 ∧ directive.precision.value = some 0))
    (hexadecimal : directive.has .sharp = true → letter = .x ∨ letter = .X → value ≠ 0)
    (notOctal : ¬ (directive.has .sharp = true ∧ letter = .o)) :
    directive.numberText letter directive.width.value value =
        directive.integerText letter directive.width.value value ↔
      directive.IntegerAgrees letter value := by
  rw [numberText_eq_iff_of_same special digits shown]
  refine ⟨fun fill => ?_, fun agrees => agrees.fill⟩
  exact {
    opposite
    digits := shown
    fill
    hexadecimal
    octal := fun sharp octal => absurd ⟨sharp, octal⟩ notOctal }

theorem integerAgrees_octal_iff (opposite : value ≠ -2 ^ 63) (sharp : directive.has .sharp = true)
    (shown : ¬ (value = 0 ∧ directive.precision.value = some 0)) :
    directive.numberText .o directive.width.value value = directive.integerText .o directive.width.value value ↔
      directive.IntegerAgrees .o value := by
  by_cases zero : value = 0
  · subst zero
    rw [octal_zero_iff sharp fun nothing => shown ⟨rfl, nothing⟩]
    constructor
    · intro filled
      exact {
        opposite
        digits := shown
        fill := fun _ _ precise => absurd filled.1 precise
        hexadecimal := fun _ letter => by simp at letter
        octal := fun _ _ => by rwa [if_pos rfl] }
    · intro agrees
      have octal := agrees.octal sharp rfl
      rwa [if_pos rfl] at octal
  · by_cases short : directive.precision.value.getD 0 ≤ (figures .o value.natAbs).length
    · rw [octal_short_iff sharp zero short]
      refine ⟨fun fill => ?_, fun agrees => agrees.fill⟩
      exact {
        opposite
        digits := shown
        fill
        hexadecimal := fun _ letter => by simp at letter
        octal := fun _ _ => by rwa [if_neg zero] }
    · refine iff_of_false (octal_long_ne sharp zero (Nat.lt_of_not_le short) _) fun agrees => ?_
      have octal := agrees.octal sharp rfl
      rw [if_neg zero] at octal
      exact short octal

theorem numberText_eq_iff (opposite : value ≠ -2 ^ 63)
    (defined : ¬ (directive.has .sharp = true ∧ (letter.signed = true ∨ letter = .u))) :
    directive.numberText letter directive.width.value value =
        directive.integerText letter directive.width.value value ↔
      directive.IntegerAgrees letter value := by
  by_cases nothing : value = 0 ∧ directive.precision.value = some 0
  · obtain ⟨rfl, bare⟩ := nothing
    exact iff_of_false (numberText_ne_of_nothing _ bare) fun agrees => agrees.digits ⟨rfl, bare⟩
  · cases sharp : directive.has .sharp with
    | false =>
        have special : directive.specialBytes letter = directive.radixBytes letter value := by
          simp [Directive.specialBytes, Directive.radixBytes, sharp]
        refine integerAgrees_iff_of_same opposite special ?_ nothing (fun same => ?_) (fun same => ?_)
        · simp [Directive.integerDigits, sharp]
        · simp [sharp] at same
        · simp [sharp] at same
    | true =>
        by_cases octal : letter = .o
        · subst octal
          exact integerAgrees_octal_iff opposite sharp nothing
        · by_cases zero : value = 0
          · subst zero
            have hexadecimal : letter = .x ∨ letter = .X := by
              cases letter with
              | d => exact absurd ⟨sharp, .inl rfl⟩ defined
              | i => exact absurd ⟨sharp, .inl rfl⟩ defined
              | u => exact absurd ⟨sharp, .inr rfl⟩ defined
              | o => exact absurd rfl octal
              | x => exact .inl rfl
              | X => exact .inr rfl
            exact iff_of_false (numberText_ne_of_radix _ sharp hexadecimal) fun agrees =>
              agrees.hexadecimal sharp hexadecimal rfl
          · have special : directive.specialBytes letter = directive.radixBytes letter value := by
              unfold Directive.specialBytes Directive.radixBytes
              rw [if_pos sharp, if_pos ⟨sharp, zero⟩]
              cases letter with
              | o => exact absurd rfl octal
              | d | i | u | x | X => rfl
            refine integerAgrees_iff_of_same opposite special ?_ nothing (fun _ _ => zero) fun same => octal same.2
            exact if_neg fun same => octal same.2

theorem length_precise_le (letter : Integer) (precision : Option Nat) (number : Nat) :
    (precise letter precision number).length ≤
      (List.replicate (precision.getD 0 - (figures letter number).length) (48 : UInt8) ++
        figures letter number).length := by
  by_cases nothing : number = 0 ∧ precision = some 0
  · obtain ⟨rfl, rfl⟩ := nothing
    rw [precise_nothing]
    exact Nat.zero_le _
  · rw [precise_eq letter nothing]

theorem length_octal_le (digits : Bytes) : (octal digits).length ≤ digits.length + 1 := by
  unfold octal
  split
  case isTrue => exact Nat.le_succ _
  case isFalse => exact Nat.le_refl _

/-- The standard never writes more than `__number`. -/
theorem length_integerText_le (directive : Directive) (letter : Integer) (width : Nat) (value : Int) :
    (directive.integerText letter width value).length ≤ (directive.numberText letter width value).length := by
  have digits := length_precise_le letter directive.precision.value value.natAbs
  have text : (directive.radixBytes letter value).length + (directive.integerDigits letter value).length ≤
      (directive.specialBytes letter).length +
        (precise letter directive.precision.value value.natAbs).length := by
    unfold Directive.radixBytes Directive.integerDigits Directive.specialBytes
    cases directive.has .sharp with
    | false => simp
    | true =>
        have zero := length_octal_le (precise letter directive.precision.value value.natAbs)
        by_cases nonzero : value ≠ 0
        · cases letter with
          | o => simp [nonzero]; omega
          | d | i | u | x | X => simp [nonzero]
        · cases letter with
          | o => simp [nonzero]; omega
          | d | i | u | x | X => simp [nonzero]
  unfold Directive.integerText Directive.numberText
  rw [length_justified, length_justified, List.length_append, List.length_append]
  omega

theorem zero_not_mem_numberText (directive : Directive) (letter : Integer) (width : Nat) (value : Int) :
    0 ∉ directive.numberText letter width value := by
  intro member
  have sign : ∀ byte ∈ directive.signBytes letter value, byte ≠ 0 := by
    unfold Directive.signBytes
    split
    case isTrue =>
        split
        case isTrue => simp [dash]
        case isFalse =>
            split
            case isTrue => simp
            case isFalse => split <;> simp [Text.space]
    case isFalse => simp
  have special : ∀ byte ∈ directive.specialBytes letter, byte ≠ 0 := by
    unfold Directive.specialBytes
    split
    case isTrue => cases letter <;> simp
    case isFalse => simp
  rcases mem_of_mem_justified member with space | zero | head | body
  · exact absurd space (by decide)
  · exact absurd zero (by decide)
  · rcases List.mem_append.mp head with first | second
    · exact sign 0 first rfl
    · exact special 0 second rfl
  · rcases List.mem_append.mp body with fill | figure
    · exact absurd (List.eq_of_mem_replicate fill) (by decide)
    · exact zero_not_mem_figures letter _ figure

end Agreement

end GalaGopher.Probe.Fprintf.Standard
