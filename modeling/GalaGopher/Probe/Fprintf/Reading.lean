import GalaGopher.Probe.Fprintf.Room
import GalaGopher.Probe.Fprintf.Standard

namespace GalaGopher.Probe.Fprintf.Standard

open Text

variable {δ : Type} {rest : Bytes} {more : List (Arg δ)}

def Width.read : Width → Outcome Int
  | .absent => .ok (-1)
  | .literal lead rest =>
      if numeral (Width.digits lead rest) + 48 ≤ intMax then .ok (numeral (Width.digits lead rest))
      else .error .undefined
  | .star value => if value.toInt = -(intMax + 1) then .error .undefined else .ok value.toInt.natAbs

def Precision.read : Precision → Outcome Int
  | .absent => .ok (-1)
  | .literal digits => if numeral digits + 48 ≤ intMax then .ok (numeral digits) else .error .undefined
  | .star value _ => .ok value.toInt

def Length.qualifier : Length → Option Qualifier
  | .absent => none
  | .h => some .h
  | .l => some .l
  | .ll => some .q

/-- The number that `__number` gets. -/
def Length.num (length : Length) (signed : Bool) (bits : UInt64) : UInt64 :=
  match length with
  | .absent => if signed then bits.toUInt32.toInt32.toInt64.toUInt64 else bits.toUInt32.toUInt64
  | .h =>
      if signed then bits.toUInt32.toUInt16.toInt16.toInt64.toUInt64 else bits.toUInt32.toUInt16.toUInt64
  | .l | .ll => bits

def Directive.codeFlags (directive : Directive) : Flags where
  zeroPad := directive.has .zero
  plus := directive.has .plus
  space := directive.has .space
  left := directive.left
  special := directive.has .sharp

def Operand.piece (length : Length) (flags : Flags) (fieldWidth precision : Int) : Operand → Piece δ
  | .integer letter bits =>
      .integer (length.num letter.signed bits) letter.base fieldWidth precision
        { flags with sign := letter.signed, small := letter = .x }
  | .character value => .character flags fieldWidth value
  | .string _ memory => .string flags fieldWidth precision memory
  | .percent => .plain [Text.percent]

/-- What the turn of a directive reads. -/
def Directive.piece (directive : Directive) : Outcome (Piece δ) := do
  let fieldWidth ← directive.width.read
  let precision ← directive.precision.read
  pure (directive.operand.piece directive.length directive.codeFlags fieldWidth precision)

theorem digitByte_toNat (digit : Fin 10) : (digitByte digit).toNat = 48 + digit := by
  rw [digitByte, UInt8.toNat_ofNat']
  omega

theorem isDigit_digitByte (digit : Fin 10) : isDigit (digitByte digit) = true := by
  have value := digitByte_toNat digit
  simp only [isDigit, Bool.and_eq_true, decide_eq_true_eq, UInt8.le_iff_toNat_le, value]
  exact ⟨Nat.le_add_right 48 _, by change 48 + _ ≤ 57; omega⟩

theorem le_numeralFrom (number : Nat) (digits : List (Fin 10)) : number ≤ numeralFrom number digits := by
  induction digits generalizing number with
  | nil => exact Nat.le_refl _
  | cons digit digits ih =>
      calc
        number ≤ number * 10 + digit := by omega
        _ ≤ numeralFrom (number * 10 + digit) digits := ih _

/-- The format starts with one of these bytes. -/
def Starts (bytes : Bytes) (format : Bytes) : Prop := ∃ byte rest, format = byte :: rest ∧ byte ∈ bytes

theorem skipAtoi_numeralFrom (digits : List (Fin 10)) {i : Nat} (small : i + 48 ≤ intMax)
    (ends : ∀ byte behind, rest = byte :: behind → isDigit byte = false) :
    skipAtoi i (digits.map digitByte ++ rest) =
      if numeralFrom i digits + 48 ≤ intMax then .ok (numeralFrom i digits, rest) else .error .undefined := by
  induction digits generalizing i with
  | nil =>
      rw [List.map_nil, List.nil_append]
      refine Eq.trans ?_ (if_pos small).symm
      cases rest with
      | nil => rfl
      | cons byte rest =>
          rw [skipAtoi, ends byte rest rfl]
          rfl
  | cons digit digits ih =>
      rw [List.map_cons, List.cons_append, skipAtoi, isDigit_digitByte, if_pos rfl, digitByte_toNat]
      have next : i * 10 + (48 + digit) - 48 = i * 10 + digit := by omega
      have later : numeralFrom i (digit :: digits) = numeralFrom (i * 10 + digit) digits := rfl
      rw [later]
      by_cases fits : i * 10 + (48 + digit) ≤ intMax
      · rw [if_pos fits, next]
        exact ih (by omega)
      · have grows := le_numeralFrom (i * 10 + digit) digits
        rw [if_neg fits, if_neg (by omega)]

theorem skipAtoi_numeral (digits : List (Fin 10)) (ends : ∀ byte behind, rest = byte :: behind → isDigit byte = false) :
    skipAtoi 0 (digits.map digitByte ++ rest) =
      if numeral digits + 48 ≤ intMax then .ok (numeral digits, rest) else .error .undefined :=
  skipAtoi_numeralFrom digits (by decide) ends

def letters : Bytes := [100, 105, 117, 111, 120, 88, 99, 115, 37]

def lengthStarts : Bytes := [104, 108] ++ letters

def precisionStarts : Bytes := 46 :: lengthStarts

def widthStarts : Bytes := [42, 49, 50, 51, 52, 53, 54, 55, 56, 57] ++ precisionStarts

theorem Operand.byte_mem (operand : Operand) : operand.byte ∈ letters := by
  cases operand with
  | integer letter bits =>
      have integers : ∀ letter : Integer, letter.byte ∈ letters := by
        intro letter
        cases letter <;> decide
      exact integers letter
  | character value => exact (by decide : (99 : UInt8) ∈ letters)
  | string address memory => exact (by decide : (115 : UInt8) ∈ letters)
  | percent => exact (by decide : (37 : UInt8) ∈ letters)

theorem Length.starts (length : Length) (operand : Operand) (rest : Bytes) :
    Starts lengthStarts (length.bytes ++ operand.byte :: rest) := by
  cases length with
  | absent => exact ⟨_, _, rfl, List.mem_append_right _ operand.byte_mem⟩
  | h => exact ⟨_, _, rfl, by decide⟩
  | l => exact ⟨_, _, rfl, by decide⟩
  | ll => exact ⟨_, _, rfl, by decide⟩

theorem Precision.starts (precision : Precision) (starts : Starts lengthStarts rest) :
    Starts precisionStarts (precision.bytes ++ rest) := by
  cases precision with
  | absent =>
      obtain ⟨byte, behind, same, member⟩ := starts
      exact ⟨byte, behind, same, List.mem_cons_of_mem _ member⟩
  | literal digits => exact ⟨_, _, rfl, List.mem_cons_self⟩
  | star value nonneg => exact ⟨_, _, rfl, List.mem_cons_self⟩

theorem Width.starts (width : Width) (starts : Starts precisionStarts rest) :
    Starts widthStarts (width.bytes ++ rest) := by
  cases width with
  | absent =>
      obtain ⟨byte, behind, same, member⟩ := starts
      exact ⟨byte, behind, same, List.mem_append_right _ member⟩
  | literal lead digits =>
      refine ⟨_, _, rfl, List.mem_append_left _ ?_⟩
      revert lead
      decide
  | star value => exact ⟨_, _, rfl, by decide⟩

def raised (flags : Flags) (list : List Flag) : Flags :=
  { flags with
    left := flags.left || list.contains .minus
    plus := flags.plus || list.contains .plus
    space := flags.space || list.contains .space
    special := flags.special || list.contains .sharp
    zeroPad := flags.zeroPad || list.contains .zero }

theorem raise_of_starts {byte : UInt8} (member : byte ∈ widthStarts) (flags : Flags) : flags.raise byte = none := by
  have others : ∀ byte ∈ widthStarts, byte ≠ dash ∧ byte ≠ 43 ∧ byte ≠ Text.space ∧ byte ≠ 35 ∧ byte ≠ 48 := by
    simp [widthStarts, precisionStarts, lengthStarts, letters, dash, Text.space]
  obtain ⟨minus, plus, space, sharp, zero⟩ := others byte member
  rw [Flags.raise, if_neg minus, if_neg plus, if_neg space, if_neg sharp, if_neg zero]

theorem raise_byte (flags : Flags) (flag : Flag) : flags.raise flag.byte = some (raised flags [flag]) := by
  cases flags
  cases flag <;> simp [Flags.raise, Flag.byte, raised, dash, Text.space]

theorem raised_cons (flags : Flags) (flag : Flag) (list : List Flag) :
    raised (raised flags [flag]) list = raised flags (flag :: list) := by
  cases flags
  cases flag <;> simp [raised]

theorem processFlags_bytes (flags : Flags) (list : List Flag) (starts : Starts widthStarts rest) :
    processFlags flags (list.map Flag.byte ++ rest) = (raised flags list, rest) := by
  induction list generalizing flags with
  | nil =>
      obtain ⟨byte, behind, rfl, member⟩ := starts
      rw [List.map_nil, List.nil_append, processFlags, raise_of_starts member]
      simp [raised]
  | cons flag list ih =>
      rw [List.map_cons, List.cons_append, processFlags, raise_byte]
      exact (ih _).trans (by rw [raised_cons])

theorem getFieldWidth_bytes (flags : Flags) (width : Width) (starts : Starts precisionStarts rest) :
    getFieldWidth flags (width.bytes ++ rest) (width.arguments ++ more) = (do
      let fieldWidth ← width.read
      pure ({ flags with left := flags.left || width.leftward }, fieldWidth, rest, more)) := by
  have others : ∀ byte ∈ precisionStarts, isDigit byte = false ∧ byte ≠ star := by
    simp [precisionStarts, lengthStarts, letters, isDigit, star]
  obtain ⟨byte, behind, rfl, member⟩ := starts
  obtain ⟨noDigit, noStar⟩ := others byte member
  cases width with
  | absent =>
      simp only [Width.bytes, Width.arguments, List.nil_append, getFieldWidth, noDigit, Bool.false_eq_true, if_false,
        if_neg noStar, Width.read, Width.leftward, Bool.or_false]
      rfl
  | literal lead digits =>
      have skipped := @skipAtoi_numeral (byte :: behind) (Width.digits lead digits) fun next after same => by
        cases same
        exact noDigit
      change getFieldWidth flags (digitByte lead.succ :: (digits.map digitByte ++ byte :: behind)) more = _
      change skipAtoi 0 (digitByte lead.succ :: (digits.map digitByte ++ byte :: behind)) = _ at skipped
      rw [getFieldWidth, if_pos (isDigit_digitByte _), skipped, Width.read, Width.leftward, Bool.or_false]
      split <;> rfl
  | star value =>
      change getFieldWidth flags (Fprintf.star :: byte :: behind) (.int value.toUInt32 :: more) = _
      have noDigit : isDigit Fprintf.star = false := by decide
      simp only [getFieldWidth, noDigit, Bool.false_eq_true, if_false, if_true, intArg, bind, Except.bind, Width.read,
        Width.leftward, Int32.toInt32_toUInt32, pure, Except.pure]
      by_cases negative : value.toInt < 0
      · by_cases least : value.toInt = -(intMax + 1)
        · simp only [if_pos negative, if_pos least]
        · have opposite : -value.toInt = value.toInt.natAbs := by omega
          simp only [if_neg least, opposite, negative, decide_true, Bool.or_true, if_true]
      · have same : value.toInt = value.toInt.natAbs := by omega
        have most : ¬ value.toInt = -(intMax + 1) := by
          change ¬ value.toInt = -(2147483647 + 1)
          omega
        simp only [if_neg most, ← same, negative, decide_false, Bool.or_false, if_false]

theorem getPrecision_bytes (precision : Precision) (starts : Starts lengthStarts rest) :
    getPrecision (precision.bytes ++ rest) (precision.arguments ++ more) = (do
      let figures ← precision.read
      pure (figures, rest, more)) := by
  have others : ∀ byte ∈ lengthStarts, isDigit byte = false ∧ byte ≠ star ∧ byte ≠ dot := by
    simp [lengthStarts, letters, isDigit, star, dot]
  obtain ⟨byte, behind, rfl, member⟩ := starts
  obtain ⟨noDigit, noStar, noDot⟩ := others byte member
  cases precision with
  | absent =>
      change getPrecision (byte :: behind) more = _
      simp only [getPrecision, if_neg noDot]
      rfl
  | literal digits =>
      cases digits with
      | nil =>
          change getPrecision (dot :: byte :: behind) more = _
          simp only [getPrecision, if_true, noDigit, Bool.false_eq_true, if_false, if_neg noStar]
          rfl
      | cons digit digits =>
          have skipped := @skipAtoi_numeral (byte :: behind) (digit :: digits) fun next after same => by
            cases same
            exact noDigit
          change getPrecision (dot :: digitByte digit :: (digits.map digitByte ++ byte :: behind)) more = _
          change skipAtoi 0 (digitByte digit :: (digits.map digitByte ++ byte :: behind)) = _ at skipped
          simp only [getPrecision, if_true, isDigit_digitByte, skipped, Precision.read]
          split <;> rfl
  | star value nonneg =>
      change getPrecision (dot :: Fprintf.star :: byte :: behind) (.int value.toUInt32 :: more) = _
      have starDigit : isDigit Fprintf.star = false := by decide
      simp only [getPrecision, if_true, starDigit, Bool.false_eq_true, if_false, intArg, bind, Except.bind,
        Precision.read, Int32.toInt32_toUInt32, pure, Except.pure, if_neg (Int.not_lt.mpr nonneg)]

theorem getQualifier_bytes (length : Length) (operand : Operand) (rest : Bytes) :
    getQualifier (length.bytes ++ operand.byte :: rest) = (length.qualifier, operand.byte :: rest) := by
  have others : ∀ byte ∈ letters, byte ≠ 108 ∧ byte ≠ 104 ∧ byte ≠ 76 := by
    simp [letters]
  obtain ⟨notL, notH, notLong⟩ := others operand.byte operand.byte_mem
  cases length with
  | absent =>
      change getQualifier (operand.byte :: rest) = _
      simp only [getQualifier, if_neg notL, if_neg notH, if_neg notLong]
      rfl
  | h => rfl
  | l =>
      change getQualifier (108 :: operand.byte :: rest) = _
      simp only [getQualifier, if_true, if_neg notL]
      rfl
  | ll => rfl

theorem integerArg_arguments (length : Length) (signed : Bool) (bits : UInt64) (letter : Integer) :
    integerArg length.qualifier signed ((Operand.integer letter bits).arguments length ++ more) =
      .ok (length.num signed bits, more) := by
  cases length with
  | absent => rfl
  | h => rfl
  | l => rfl
  | ll => rfl

theorem conversion_bytes (operand : Operand) (length : Length) (flags : Flags) (fieldWidth precision : Int)
    (rest : Bytes) :
    conversion flags fieldWidth precision length.qualifier (operand.byte :: rest) (operand.arguments length ++ more) =
      .ok (operand.piece length flags fieldWidth precision, rest, more) := by
  cases operand with
  | integer letter bits =>
      have letterBytes : letterOf letter.byte = .integer letter.base letter.signed (letter = .x) := by
        cases letter <;> decide
      change conversion flags fieldWidth precision length.qualifier (letter.byte :: rest)
        ((Operand.integer letter bits).arguments length ++ more) = _
      rw [conversion]
      simp only [letterBytes, integerArg_arguments]
      rfl
  | character value => rfl
  | string address memory => rfl
  | percent => rfl

/-- A directive is read in one turn. -/
theorem turn_directive (directive : Directive) (rest : Bytes) (more : List (Arg δ)) :
    turn percent (directive.bytes ++ rest) (directive.arguments ++ more) = (do
      let piece ← directive.piece
      pure (piece, rest, more)) := by
  have behindLength := directive.length.starts directive.operand rest
  have behindPrecision := directive.precision.starts behindLength
  have behindWidth := directive.width.starts behindPrecision
  have split : directive.bytes ++ rest = directive.flags.map Flag.byte ++ (directive.width.bytes ++
      (directive.precision.bytes ++ (directive.length.bytes ++ directive.operand.byte :: rest))) := by
    simp [Directive.bytes]
  have passed : (directive.arguments : List (Arg δ)) ++ more = directive.width.arguments ++
      (directive.precision.arguments ++ (directive.operand.arguments directive.length ++ more)) := by
    simp [Directive.arguments]
  rw [turn, if_neg (not_not_intro rfl), split, passed, processFlags_bytes {} directive.flags behindWidth]
  simp only [getFieldWidth_bytes _ directive.width behindPrecision, Directive.piece, bind_assoc, pure_bind,
    getPrecision_bytes directive.precision behindLength, getQualifier_bytes, conversion_bytes]
  rfl

def Item.piece : Item → Outcome (Piece δ)
  | .ordinary byte _ => .ok (.plain [byte])
  | .conversion directive => directive.piece

def pieces : List Item → Outcome (List (Piece δ))
  | [] => .ok []
  | item :: items => do
      let piece ← item.piece
      let rest ← pieces items
      pure (piece :: rest)

/-- The loop takes a turn for each item, and leaves further arguments. -/
theorem turns_format (items : List Item) (extra : List (Arg δ)) :
    turns (format items).length (format items) (arguments items ++ extra) = pieces items := by
  induction items with
  | nil => rfl
  | cons item items ih =>
      have passed : (arguments (item :: items) : List (Arg δ)) ++ extra =
          item.arguments ++ (arguments items ++ extra) := by
        simp [arguments]
      rw [passed]
      cases item with
      | ordinary byte plain =>
          change turns ((format items).length + 1) (byte :: format items) (arguments items ++ extra) = _
          rw [turns, turn, if_pos plain.2, pieces, ← ih]
          rfl
      | conversion directive =>
          have enough : (format items).length ≤ (directive.bytes ++ format items).length := by
            rw [List.length_append]
            exact Nat.le_add_left _ _
          change turns ((directive.bytes ++ format items).length + 1) (percent :: (directive.bytes ++ format items))
            (directive.arguments ++ (arguments items ++ extra)) = _
          rw [turns, turn_directive, pieces, ← ih]
          simp only [bind_assoc, pure_bind, turns_fuel enough, Item.piece]

end GalaGopher.Probe.Fprintf.Standard
