import GalaGopher.Probe.Fprintf.Room
import GalaGopher.Text.Radix

namespace GalaGopher.Probe.Fprintf.Loops

open Text

def intMin : Int := -2147483648

/-- A value that is assigned to an `int`; a signed overflow is undefined. -/
def int (value : Int) : Outcome Int := if intMin ≤ value ∧ value ≤ intMax then .ok value else .error .undefined

/-- `while (size-- > bound) *str++ = byte;`: what is written, and `size`. -/
def padLoop (byte : UInt8) (bound size : Int) : Outcome (Bytes × Int) :=
  if size = intMin then .error .undefined
  else if bound < size then do
    let (text, last) ← padLoop byte bound (size - 1)
    pure (byte :: text, last)
  else
    .ok ([], size - 1)
termination_by (size - bound).toNat

def tmpSize : Nat := 66

/-- The loop over the digits; `i` is the length of what `tmp` holds, and `room`
is what is left of the array. -/
def digitLoop (type : Flags) (base : Nat) : (room num : Nat) → (tmp : Bytes) → Outcome Bytes
  | 0, num, tmp => if num = 0 then .ok tmp else .error .undefined
  | room + 1, num, tmp =>
      if num = 0 then .ok tmp
      else digitLoop type base room (num / base) (tmp ++ [digits.getD (num % base) 0 ||| type.locase])

/-- What `tmp` holds behind the `if` for zero. -/
def tmpDigits (type : Flags) (base : Nat) (num : UInt64) : Outcome Bytes :=
  if num = 0 then .ok [48] else digitLoop type base tmpSize num.toNat []

/-- `while (i-- > 0) *str++ = tmp[i];` -/
def copyLoop (tmp : Bytes) : (i : Nat) → Outcome Bytes
  | 0 => .ok []
  | i + 1 =>
      match tmp[i]? with
      | none => .error .undefined
      | some byte => do
          let rest ← copyLoop tmp i
          pure (byte :: rest)

/-- The loops that write, from the first on. -/
def write (type : Flags) (sign special tmp : Bytes) (precision size : Int) : Outcome Bytes := do
  let zeroPad := type.zeroPad && !type.left
  let c := if zeroPad then 48 else Text.space
  let (before, size) ← if !zeroPad && !type.left then padLoop Text.space 0 size else .ok ([], size)
  let (fill, size) ← if type.left then .ok ([], size) else padLoop c 0 size
  let (zeros, _) ← padLoop 48 tmp.length precision
  let figures ← copyLoop tmp tmp.length
  let (after, _) ← padLoop Text.space 0 size
  pure (before ++ sign ++ special ++ fill ++ zeros ++ figures ++ after)

def number (num : UInt64) (base : Nat) (size precision : Int32) (type : Flags) : Outcome Bytes :=
  if base < 2 ∨ 16 < base then
    .error .undefined
  else do
    let (sign, num) ← signOf type num
    let size ← int (size.toInt - sign.length)
    let special := specialOf type base
    let size ← int (size - special.length)
    let tmp ← tmpDigits type base num
    let i : Int := tmp.length
    let precision := if i > precision.toInt then i else precision.toInt
    let size ← int (size - precision)
    write type sign special tmp precision size

/-- What a number takes without a field. -/
def naturalLength (num : UInt64) (base : Nat) (precision : Int32) (type : Flags) : Nat :=
  (signText type num).length + (specialOf type base).length +
    max precision.toInt.toNat (Nat.log base (magnitude type num) + 1)

/-- Blanks, the sign, the prefix, zeros, digits and blanks, of which the digits
are read as the number. -/
structure Shows (num : UInt64) (base : Nat) (size precision : Int32) (type : Flags) (text : Bytes) : Prop where
  shape : ∃ (before zeros : Nat) (figures : Bytes) (after : Nat),
    text = List.replicate before Text.space ++ signText type num ++ specialOf type base ++ List.replicate zeros 48 ++
        figures ++ List.replicate after Text.space ∧
      readNumber base (List.replicate zeros 48 ++ figures) = some (magnitude type num)
  length : text.length = max size.toInt.toNat (naturalLength num base precision type)

/-- How often `size` is counted down behind the end of its loops. -/
def countdowns (type : Flags) : Int := if type.left then 1 else if type.zeroPad then 2 else 3

/-- `size` stays an `int`. -/
def Countable (num : UInt64) (base : Nat) (size precision : Int32) (type : Flags) : Prop :=
  intMin + countdowns type ≤ size.toInt - naturalLength num base precision type

instance (num : UInt64) (base : Nat) (size precision : Int32) (type : Flags) :
    Decidable (Countable num base size precision type) := inferInstanceAs (Decidable (_ ≤ _))

variable {type : Flags} {base num : Nat} {tmp : Bytes} {size bound : Int}

theorem ok_bind {α β : Type} (value : α) (next : α → Outcome β) : (Except.ok value >>= next) = next value := rfl

theorem int_eq (small : size ≤ intMax) : int size = if size < intMin then .error .undefined else .ok size := by
  rw [int]
  by_cases low : size < intMin
  · rw [if_pos low, if_neg (by omega)]
  · rw [if_neg low, if_pos (by omega)]

/-- A value that has to be an `int` for what follows. -/
theorem int_next {value : Int} {next : Int → Outcome Bytes} {allowed : Prop} [Decidable allowed] {text : Outcome Bytes}
    (small : value ≤ intMax) (needs : allowed → intMin ≤ value)
    (rest : intMin ≤ value → next value = if allowed then text else .error .undefined) :
    (int value >>= next) = if allowed then text else .error .undefined := by
  rw [int_eq small]
  by_cases low : value < intMin
  · rw [if_pos low, if_neg fun holds => absurd (needs holds) (Int.not_le.mpr low)]
    rfl
  · rw [if_neg low, ok_bind]
    exact rest (Int.not_lt.mp low)

theorem padLoop_intMin (byte : UInt8) (bound : Int) : padLoop byte bound intMin = .error .undefined := by
  rw [padLoop, if_pos rfl]

/-- The loop ends where its bound is not the least `int`. -/
theorem padLoop_eq (byte : UInt8) (low : intMin < bound) (counts : intMin < size) :
    padLoop byte bound size = .ok (pad byte (size - bound), if bound < size then bound - 1 else size - 1) := by
  induction distance : (size - bound).toNat generalizing size with
  | zero =>
      have ended : ¬ bound < size := by omega
      have nothing : pad byte (size - bound) = [] := by
        rw [pad, distance]
        rfl
      rw [padLoop, if_neg (by omega), if_neg ended, if_neg ended, nothing]
  | succ count ih =>
      have goes : bound < size := by omega
      have less : (size - 1 - bound).toNat = count := by omega
      have first : pad byte (size - bound) = byte :: pad byte (size - 1 - bound) := by
        rw [pad, pad, less, distance, List.replicate_succ]
      have last : (if bound < size - 1 then bound - 1 else size - 1 - 1) = bound - 1 := by
        split <;> omega
      rw [padLoop, if_neg (by omega), if_pos goes, if_pos goes, ih (by omega) less, last, first]
      rfl

/-- Where there is room for as many digits, `tmp` holds them. -/
theorem digitLoop_eq (valid : 1 < base) {room : Nat} (enough : (Nat.digits base num).length ≤ room) (tmp : Bytes) :
    digitLoop type base room num tmp =
      .ok (tmp ++ (Nat.digits base num).map fun res => digits.getD res 0 ||| type.locase) := by
  induction room generalizing num tmp with
  | zero =>
      have none : Nat.digits base num = [] := List.length_eq_zero_iff.mp (Nat.le_zero.mp enough)
      rw [digitLoop, if_pos (Nat.digits_eq_nil_iff_eq_zero.mp none), none, List.map_nil, List.append_nil]
  | succ room ih =>
      rw [digitLoop]
      split
      case isTrue zero => rw [zero, Nat.digits_zero, List.map_nil, List.append_nil]
      case isFalse nonzero =>
          rw [Nat.digits_def' valid (Nat.pos_of_ne_zero nonzero)] at enough ⊢
          rw [ih (Nat.le_of_succ_le_succ enough), List.map_cons, List.append_assoc]
          rfl

theorem copyLoop_eq {i : Nat} (within : i ≤ tmp.length) : copyLoop tmp i = .ok (tmp.take i).reverse := by
  induction i with
  | zero => rfl
  | succ i ih =>
      have found : tmp[i]? = some tmp[i] := List.getElem?_eq_getElem within
      rw [copyLoop, found, ih (Nat.le_of_succ_le within), List.take_succ_eq_append_getElem within, List.reverse_append]
      rfl

theorem padLoop_zero (byte : UInt8) (counts : intMin ≤ size) :
    padLoop byte 0 size = if size = intMin then .error .undefined else .ok (pad byte size, spent size) := by
  by_cases least : size = intMin
  · rw [if_pos least, least, padLoop_intMin]
  · rw [if_neg least, padLoop_eq byte (by decide) (by omega), Int.sub_zero]
    rfl

theorem length_digits_le (valid : 1 < base) (num : UInt64) : (Nat.digits base num.toNat).length ≤ tmpSize := by
  have small : num.toNat < 2 ^ tmpSize := Nat.lt_trans num.toNat_lt (by decide)
  exact (Nat.digits_length_le_iff valid _).mpr (Nat.lt_of_lt_of_le small (Nat.pow_le_pow_left valid _))

theorem tmpDigits_eq (valid : 1 < base) (num : UInt64) : tmpDigits type base num = .ok (tmpOf type base num.toNat) := by
  have zero : num = 0 ↔ num.toNat = 0 := by rw [← UInt64.toNat_inj]; rfl
  rw [tmpDigits, tmpOf]
  by_cases none : num = 0
  · rw [if_pos none, if_pos (zero.mp none)]
  · rw [if_neg none, if_neg (mt zero.mpr none), digitLoop_eq valid (length_digits_le valid num), List.nil_append]

theorem spent_counts (counts : intMin < size) : intMin ≤ spent size := by
  have bottom : intMin = -2147483648 := rfl
  rw [spent]
  split <;> omega

theorem le_spent_iff {least : Int} (low : least < -1) : least ≤ spent size ↔ least + 1 ≤ size := by
  rw [spent]
  split <;> omega

/-- A loop that counts `size` down, and what can still be counted behind it. -/
theorem padLoop_next {byte : UInt8} {least : Int} {next : Bytes × Int → Outcome Bytes} {text : Bytes} (low : least < -1)
    (above : intMin ≤ least) (counts : intMin ≤ size)
    (rest : intMin ≤ spent size →
      next (pad byte size, spent size) = if least ≤ spent size then .ok text else .error .undefined) :
    (padLoop byte 0 size >>= next) = if least + 1 ≤ size then .ok text else .error .undefined := by
  rw [padLoop_zero byte counts]
  by_cases bottom : size = intMin
  · rw [if_pos bottom, if_neg (by omega)]
    rfl
  · rw [if_neg bottom]
    simp only [← le_spent_iff low]
    exact rest (spent_counts (by omega))

/-- What the loops write, and when `size` stays an `int` in them. -/
theorem write_eq {sign special : Bytes} {precision : Int} (counts : intMin ≤ size) (long : tmp.length ≤ precision) :
    let zeroPad := type.zeroPad && !type.left
    let leads := !zeroPad && !type.left
    let filled := if leads then spent size else size
    write type sign special tmp precision size =
      if intMin + countdowns type ≤ size then
        .ok ((if leads then pad Text.space size else []) ++ sign ++ special ++
          (if type.left then [] else pad (if zeroPad then 48 else Text.space) filled) ++ pad 48 (precision - tmp.length) ++
          tmp.reverse ++ pad Text.space (if type.left then filled else spent filled))
      else
        .error .undefined := by
  have low : intMin < (tmp.length : Int) := Int.lt_of_lt_of_le (by decide) (Int.natCast_nonneg _)
  have zeros := padLoop_eq 48 low (Int.lt_of_lt_of_le low long)
  have figures := copyLoop_eq (Nat.le_refl tmp.length)
  rw [List.take_length] at figures
  have last (size : Int) (text : Bytes) (counts : intMin ≤ size) :
      (Except.ok text : Outcome Bytes) = if intMin ≤ size then .ok text else .error .undefined := (if_pos counts).symm
  simp only [write, zeros, figures, ok_bind]
  cases left : type.left with
  | true =>
      simp only [countdowns, left, Bool.not_true, Bool.and_false, Bool.false_eq_true, if_false, if_true]
      exact padLoop_next (by decide) (Int.le_refl _) counts (last _ _)
  | false =>
      cases zeroPad : type.zeroPad with
      | true =>
          simp only [countdowns, left, zeroPad, Bool.not_true, Bool.not_false, Bool.and_true, Bool.false_eq_true, if_false,
            if_true]
          refine @padLoop_next _ _ (intMin + 1) _ _ (by decide) (by decide) counts fun counts => ?_
          exact padLoop_next (by decide) (Int.le_refl _) counts (last _ _)
      | false =>
          simp only [countdowns, left, zeroPad, Bool.not_false, Bool.and_true, Bool.false_eq_true, if_false, if_true]
          refine @padLoop_next _ _ (intMin + 2) _ _ (by decide) (by decide) counts fun counts => ?_
          refine @padLoop_next _ _ (intMin + 1) _ _ (by decide) (by decide) counts fun counts => ?_
          exact padLoop_next (by decide) (Int.le_refl _) counts (last _ _)

variable {num : UInt64}

/-- Loop by loop the text is the same, as long as `size` is an `int`. -/
theorem number_eq (valid : 2 ≤ base ∧ base ≤ 16) (opposite : type.sign → num.toInt64 ≠ Int64.minValue)
    (size precision : Int32) :
    number num base size precision type =
      if Countable num base size precision type then Fprintf.number num base size.toInt precision.toInt type
      else .error .undefined := by
  obtain ⟨after, signed, value⟩ := signOf_eq opposite
  have range : ¬ (base < 2 ∨ 16 < base) := by omega
  have long := length_tmpOf type valid.1 after.toNat
  rw [value] at long
  have small : size.toInt ≤ intMax := Int.le_of_lt_add_one (Int32.toInt_lt size)
  simp only [number, Fprintf.number, if_neg range, signed, tmpDigits_eq valid.1, value, ok_bind]
  generalize tmpOf type base (magnitude type num) = tmp at long ⊢
  generalize figures : (if (tmp.length : Int) > precision.toInt then (tmp.length : Int) else precision.toInt) = shown
  have covers : (tmp.length : Int) ≤ shown := by split at figures <;> omega
  have natural : (naturalLength num base precision type : Int) =
      (signText type num).length + (specialOf type base).length + shown := by
    have most : ((max precision.toInt.toNat (Nat.log base (magnitude type num) + 1) : Nat) : Int) = shown := by
      rw [← long]
      split at figures <;> omega
    rw [naturalLength, Nat.cast_add, Nat.cast_add, most]
  have countable : Countable num base size precision type ↔ intMin + countdowns type ≤
      size.toInt - (signText type num).length - (specialOf type base).length - shown := by
    rw [Countable, natural]
    omega
  simp only [countable]
  generalize signText type num = sign
  generalize specialOf type base = special
  have below : 0 < countdowns type := by
    rw [countdowns]
    split
    case isTrue => decide
    case isFalse => split <;> decide
  refine int_next (by omega) (fun _ => by omega) fun _ => ?_
  refine int_next (by omega) (fun _ => by omega) fun _ => ?_
  refine int_next (by omega) (fun _ => by omega) fun counted => ?_
  exact write_eq counted covers

theorem digitValue_digits (type : Flags) : ∀ digit < 16, digitValue (digits.getD digit 0 ||| type.locase) = some digit := by
  rw [Flags.locase]
  cases type.small <;> decide

theorem readNumber_tmpOf (valid : 2 ≤ base ∧ base ≤ 16) (zeros shown : Nat) :
    readNumber base (List.replicate zeros 48 ++ (tmpOf type base shown).reverse) = some shown := by
  have positive : 0 < base := by omega
  have filled : tmpOf type base shown ≠ [] := by
    refine List.ne_nil_of_length_pos ?_
    rw [length_tmpOf type valid.1]
    exact Nat.succ_pos _
  rw [readNumber, if_neg (by simp [filled]), readDigits_zeros positive, tmpOf]
  split
  case isTrue zero =>
      have read := readDigits_zeros positive 1 []
      rw [zero]
      exact read
  case isFalse =>
      have known : ∀ digit < base, digitValue (digits.getD digit 0 ||| type.locase) = some digit := fun digit below =>
        digitValue_digits type digit (by omega)
      rw [← List.map_reverse, readDigits_ofDigits known (fun digit => Nat.digits_lt_base valid.1), Nat.zero_mul,
        Nat.zero_add, Nat.ofDigits_digits]

theorem number_undefined (least : ¬ (type.sign = true → num.toInt64 ≠ Int64.minValue)) (size precision : Int32) :
    number num base size precision type = .error .undefined := by
  have signed : signOf type num = .error .undefined := by
    rw [Classical.not_imp, not_not] at least
    rw [signOf, if_pos least.1, least.2]
    rfl
  rw [number, signed]
  split <;> rfl

theorem shows_number (valid : 2 ≤ base ∧ base ≤ 16) (opposite : type.sign → num.toInt64 ≠ Int64.minValue)
    (size precision : Int32) :
    ∃ text, Fprintf.number num base size.toInt precision.toInt type = .ok text ∧
      Shows num base size precision type text := by
  obtain ⟨text, written, length⟩ := length_number valid opposite size.toInt precision.toInt
  have justified := Fprintf.number_eq valid opposite size.toInt precision.toInt
  rw [written, Except.ok.injEq] at justified
  refine ⟨text, written, ?_, length⟩
  obtain ⟨before, filled, after, shape⟩ := justified_shape type.left type.zeroPad size.toInt.toNat
    (signText type num ++ specialOf type base)
    (List.replicate (precision.toInt.toNat - (tmpOf type base (magnitude type num)).length) 48 ++
      (tmpOf type base (magnitude type num)).reverse)
  refine ⟨before, filled + (precision.toInt.toNat - (tmpOf type base (magnitude type num)).length),
    (tmpOf type base (magnitude type num)).reverse, after, ?_, readNumber_tmpOf valid _ _⟩
  rw [justified, shape, List.replicate_add]
  simp only [List.append_assoc]
  rfl

/-- The text shows the number exactly when that has an opposite, where one is
needed, and `size` stays an `int`. -/
theorem number_shows_iff (valid : 2 ≤ base ∧ base ≤ 16) (num : UInt64) (size precision : Int32) (type : Flags) :
    (∃ text, number num base size precision type = .ok text ∧ Shows num base size precision type text) ↔
      (type.sign = true → num.toInt64 ≠ Int64.minValue) ∧ Countable num base size precision type := by
  by_cases opposite : type.sign = true → num.toInt64 ≠ Int64.minValue
  · rw [number_eq valid opposite]
    by_cases countable : Countable num base size precision type
    · rw [if_pos countable]
      exact iff_of_true (shows_number valid opposite size precision) ⟨opposite, countable⟩
    · rw [if_neg countable]
      refine iff_of_false ?_ fun both => countable both.2
      rintro ⟨text, written, _⟩
      cases written
  · refine iff_of_false ?_ fun both => opposite both.1
    rintro ⟨text, written, _⟩
    rw [number_undefined opposite] at written
    cases written

theorem number_shows_decimal :
    (∃ text, number 7 10 5 3 { sign := true } = .ok text ∧ Shows 7 10 5 3 { sign := true } text) ↔
      (({ sign := true } : Flags).sign = true → (7 : UInt64).toInt64 ≠ Int64.minValue) ∧
        Countable 7 10 5 3 { sign := true } :=
  number_shows_iff (by decide) 7 5 3 { sign := true }

/-- The most negative number has no opposite among the `long long`s. -/
theorem least_number_undefined :
    number 0x8000000000000000 10 (-1) (-1) { sign := true } = .error .undefined ∧
      ¬ ∃ text, number 0x8000000000000000 10 (-1) (-1) { sign := true } = .ok text ∧
        Shows 0x8000000000000000 10 (-1) (-1) { sign := true } text := by
  have undefined : number 0x8000000000000000 10 (-1) (-1) { sign := true } = .error .undefined := rfl
  refine ⟨undefined, ?_⟩
  rintro ⟨text, written, _⟩
  rw [undefined] at written
  cases written

end GalaGopher.Probe.Fprintf.Loops
