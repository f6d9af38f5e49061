import GalaGopher.Probe.Fprintf
import GalaGopher.Text.Field
import Mathlib.Data.Nat.Digits.Lemmas

namespace GalaGopher.Probe.Fprintf

open Data Text

variable {δ : Type} {fixed : Option Nat → Option Nat → δ → Bytes}

/-- How many bytes of the string an `s` shows. -/
def shown (memory : Bytes) (precision : Int) : Nat :=
  if 0 ≤ precision then min precision.toNat (cString memory).length else (cString memory).length

/-- The absolute value of the number that is printed. -/
def magnitude (flags : Flags) (num : UInt64) : Nat := if flags.sign then num.toInt64.toInt.natAbs else num.toNat

def signText (flags : Flags) (num : UInt64) : Bytes :=
  if flags.sign then
    if num.toInt64 < 0 then [dash] else if flags.plus then [43] else if flags.space then [Text.space] else []
  else
    []

/-- The room of one turn: the width of the field, or more. -/
def Piece.size (fixed : Option Nat → Option Nat → δ → Bytes) : Piece δ → Nat
  | .plain bytes => bytes.length
  | .character _ fieldWidth _ => max fieldWidth.toNat 1
  | .string _ fieldWidth precision memory =>
      let len := asInt (shown memory precision)
      len.toNat + (fieldWidth - len).toNat
  | .double fieldWidth precision value =>
      match bufFormat fieldWidth precision with
      | .ok (width, digits) => min 63 (fixed width digits value).length
      | .error _ => 0
  | .count => 0
  | .integer num base fieldWidth precision flags =>
      max fieldWidth.toNat
        ((signText flags num).length + (specialOf flags base).length +
          max precision.toNat (Nat.log base (magnitude flags num) + 1))

/-- The string ends where it is read, the text of the format is not cut, and
the number has an opposite. -/
def Piece.Defined : Piece δ → Prop
  | .string _ _ precision memory => 0 ∈ memory ∨ 0 ≤ precision ∧ precision ≤ memory.length
  | .double fieldWidth precision _ =>
      0 < precision → 0 < fieldWidth →
        (ascii (toString precision)).length + (ascii (toString fieldWidth)).length + 3 < 16
  | .integer num base _ _ flags => 2 ≤ base ∧ base ≤ 16 ∧ (flags.sign → num.toInt64 ≠ Int64.minValue)
  | .plain _ | .character _ _ _ | .count => True

@[simp] theorem length_pad (byte : UInt8) (size : Int) : (pad byte size).length = size.toNat := List.length_replicate

theorem pad_spent (byte : UInt8) (size : Int) : pad byte (spent size) = [] := by
  unfold pad spent
  split
  case isTrue => rfl
  case isFalse below =>
      rw [Int.toNat_of_nonpos (by omega)]
      rfl

theorem length_character (flags : Flags) (fieldWidth : Int) (value : UInt32) :
    (character flags fieldWidth value).length = max fieldWidth.toNat 1 := by
  unfold character
  cases flags.left with
  | true => simp; omega
  | false => simp [pad_spent]; omega

section Strings

variable {memory : Bytes} {precision : Int}

theorem length_cString_le (memory : Bytes) : (cString memory).length ≤ memory.length :=
  (List.takeWhile_sublist _).length_le

theorem length_cString_lt_iff (memory : Bytes) : (cString memory).length < memory.length ↔ 0 ∈ memory := by
  induction memory with
  | nil => simp
  | cons byte rest ih =>
      unfold cString at ih ⊢
      by_cases zero : byte = 0
      · simp [zero]
      · rw [List.takeWhile_cons_of_pos (by simpa using zero), List.length_cons, List.length_cons, Nat.succ_lt_succ_iff,
          ih, List.mem_cons]
        exact (or_iff_right (Ne.symm zero)).symm

theorem strnlen_of_ends (ends : 0 ∈ memory ∨ 0 ≤ precision ∧ precision ≤ memory.length) :
    strnlen memory precision = .ok (shown memory precision) := by
  have bound := length_cString_le memory
  rw [← length_cString_lt_iff] at ends
  unfold strnlen shown
  by_cases limited : 0 ≤ precision ∧ precision ≤ (cString memory).length
  · rw [if_pos limited, if_pos limited.1, Nat.min_eq_left (by omega)]
  · rw [if_neg limited, if_pos (by omega)]
    split
    case isTrue => rw [Nat.min_eq_right (by omega)]
    case isFalse => rfl

theorem strnlen_of_not_ends (runs : ¬ (0 ∈ memory ∨ 0 ≤ precision ∧ precision ≤ memory.length)) :
    strnlen memory precision = .error .undefined := by
  have bound := length_cString_le memory
  rw [← length_cString_lt_iff] at runs
  rw [strnlen, if_neg (by omega), if_neg (by omega)]

theorem shown_le (memory : Bytes) (precision : Int) : shown memory precision ≤ memory.length := by
  have bound := length_cString_le memory
  unfold shown
  split <;> omega

theorem asInt_le (size : Nat) : (asInt size).toNat ≤ size := by
  unfold asInt
  rw [Int.bmod_def]
  split <;> omega

end Strings

section Numbers

variable {flags : Flags} {num : UInt64} {base : Nat}

theorem toInt64_toInt (num : UInt64) :
    num.toInt64.toInt = if num.toNat < 2 ^ 63 then (num.toNat : Int) else num.toNat - 2 ^ 64 := by
  have value : num.toInt64.toInt = num.toBitVec.toInt := rfl
  have nat : num.toBitVec.toNat = num.toNat := rfl
  rw [value, BitVec.toInt_eq_toNat_cond, nat]
  have below := num.toNat_lt
  split <;> split <;> omega

theorem toInt64_neg_iff (num : UInt64) : num.toInt64 < 0 ↔ 2 ^ 63 ≤ num.toNat := by
  have below := num.toNat_lt
  rw [Int64.lt_iff_toInt_lt, toInt64_toInt]
  change _ < (0 : Int) ↔ _
  split <;> omega

theorem signOf_eq (opposite : flags.sign → num.toInt64 ≠ Int64.minValue) :
    ∃ after, signOf flags num = .ok (signText flags num, after) ∧ after.toNat = magnitude flags num := by
  have below := num.toNat_lt
  unfold signOf signText magnitude
  cases signed : flags.sign with
  | false => exact ⟨num, by simp, by simp⟩
  | true =>
      rw [if_pos rfl, if_pos rfl, if_pos rfl, toInt64_toInt]
      by_cases negative : num.toInt64 < 0
      · have large := (toInt64_neg_iff num).mp negative
        refine ⟨-num, by simp [negative, opposite signed], ?_⟩
        rw [if_neg (by omega), UInt64.toNat_neg]
        change (2 ^ 64 - num.toNat) % 2 ^ 64 = _
        omega
      · have small := (toInt64_neg_iff num).not.mp negative
        refine ⟨num, ?_, by rw [if_pos (by omega)]; rfl⟩
        rw [if_neg negative, if_neg negative]
        cases flags.plus <;> cases flags.space <;> rfl

theorem length_tmpOf (flags : Flags) (valid : 2 ≤ base) (num : Nat) : (tmpOf flags base num).length = Nat.log base num + 1 := by
  unfold tmpOf
  split
  case isTrue zero => simp [zero]
  case isFalse nonzero => rw [List.length_map, Nat.length_digits base num valid nonzero]

theorem number_eq (valid : 2 ≤ base ∧ base ≤ 16) (opposite : flags.sign → num.toInt64 ≠ Int64.minValue)
    (size precision : Int) :
    let tmp := tmpOf flags base (magnitude flags num)
    number num base size precision flags =
      .ok (justified flags.left flags.zeroPad size.toNat (signText flags num ++ specialOf flags base)
        (List.replicate (precision.toNat - tmp.length) 48 ++ tmp.reverse)) := by
  obtain ⟨after, signed, value⟩ := signOf_eq opposite
  have range : ¬ (base < 2 ∨ 16 < base) := by omega
  simp only [number, if_neg range, signed, value, bind, Except.bind, pure, Except.pure, Except.ok.injEq]
  generalize tmpOf flags base (magnitude flags num) = tmp
  generalize signText flags num = sign
  generalize specialOf flags base = special
  -- `precision` and `size` where the loops start
  generalize longer : (if (tmp.length : Int) > precision then (tmp.length : Int) else precision) = figures
  generalize leftOver : size - sign.length - special.length - figures = gap
  have zeros : precision.toNat - tmp.length = (figures - tmp.length).toNat := by
    split at longer <;> omega
  have room : size.toNat - ((sign ++ special).length +
      (List.replicate (precision.toNat - tmp.length) 48 ++ tmp.reverse).length) = gap.toNat := by
    rw [List.length_append, List.length_append, List.length_replicate, List.length_reverse]
    split at longer <;> omega
  cases flags.left with
  | true =>
      rw [justified_left, room, zeros]
      simp [pad, Text.space]
  | false => cases flags.zeroPad with
    | true =>
        rw [justified_filled, room, zeros]
        simp only [Bool.not_false, Bool.and_self, if_true, Bool.not_true, Bool.false_and, Bool.false_eq_true, if_false,
          pad_spent]
        simp only [pad, List.nil_append, List.append_nil, List.append_assoc]
    | false =>
        rw [justified_right, room, zeros]
        simp only [Bool.not_false, Bool.and_self, if_true, Bool.false_and, Bool.false_eq_true, if_false,
          pad_spent]
        simp [pad, Text.space]

theorem length_number (valid : 2 ≤ base ∧ base ≤ 16) (opposite : flags.sign → num.toInt64 ≠ Int64.minValue)
    (size precision : Int) :
    ∃ text, number num base size precision flags = .ok text ∧
      text.length = max size.toNat ((signText flags num).length + (specialOf flags base).length +
        max precision.toNat (Nat.log base (magnitude flags num) + 1)) := by
  refine ⟨_, number_eq valid opposite size precision, ?_⟩
  rw [length_justified, List.length_append, List.length_append, List.length_replicate, List.length_reverse,
    length_tmpOf flags valid.1]
  omega

theorem number_undefined (lacks : ¬ (2 ≤ base ∧ base ≤ 16 ∧ (flags.sign → num.toInt64 ≠ Int64.minValue)))
    (size precision : Int) : number num base size precision flags = .error .undefined := by
  unfold number
  split
  case isTrue => rfl
  case isFalse range =>
      have valid : 2 ≤ base ∧ base ≤ 16 := by omega
      have least : flags.sign = true ∧ num.toInt64 = Int64.minValue := by
        by_contra other
        exact lacks ⟨valid.1, valid.2, fun signed same => other ⟨signed, same⟩⟩
      have signed : signOf flags num = .error .undefined := by
        rw [signOf, if_pos least.1, least.2]
        rfl
      rw [signed]
      rfl

end Numbers

theorem length_string {memory : Bytes} {precision : Int} (flags : Flags) (fieldWidth : Int)
    (ends : 0 ∈ memory ∨ 0 ≤ precision ∧ precision ≤ memory.length) :
    ∃ text, string flags fieldWidth precision memory = .ok text ∧
      text.length = (asInt (shown memory precision)).toNat +
        (fieldWidth - asInt (shown memory precision)).toNat := by
  have sizes (len : Int) (within : len.toNat ≤ memory.length) :
      ((if flags.left then [] else pad Text.space (fieldWidth - len)) ++ memory.take len.toNat ++
        pad Text.space (if flags.left then fieldWidth - len else spent (fieldWidth - len))).length =
      len.toNat + (fieldWidth - len).toNat := by
    cases flags.left with
    | true => simp [within]
    | false => simp [within, pad_spent]; omega
  have within := Nat.le_trans (asInt_le (shown memory precision)) (shown_le memory precision)
  refine ⟨_, ?_, sizes (asInt (shown memory precision)) within⟩
  rw [string, strnlen_of_ends ends]
  rfl

theorem bufFormat_of_short {fieldWidth precision : Int}
    (short : 0 < precision → 0 < fieldWidth →
      (ascii (toString precision)).length + (ascii (toString fieldWidth)).length + 3 < 16) :
    ∃ width figures, bufFormat fieldWidth precision = .ok (width, figures) := by
  unfold bufFormat
  split
  case isTrue precise =>
      dsimp only
      split
      case isTrue wide =>
          rw [if_pos (by have := short precise wide; omega)]
          exact ⟨_, _, rfl⟩
      case isFalse => exact ⟨_, _, rfl⟩
  case isFalse => exact ⟨_, _, rfl⟩

theorem bufFormat_of_long {fieldWidth precision : Int}
    (long : ¬ (0 < precision → 0 < fieldWidth →
      (ascii (toString precision)).length + (ascii (toString fieldWidth)).length + 3 < 16)) :
    bufFormat fieldWidth precision = .error .undefined := by
  simp only [Classical.not_imp] at long
  rw [bufFormat, if_pos long.1, if_pos long.2.1, if_neg (by omega)]

variable (fixed) in
theorem Piece.text_of_defined {piece : Piece δ} (defined : piece.Defined) :
    ∃ text, piece.text fixed = .ok text ∧ text.length = piece.size fixed := by
  cases piece with
  | plain bytes => exact ⟨bytes, rfl, rfl⟩
  | character flags fieldWidth value => exact ⟨_, rfl, length_character flags fieldWidth value⟩
  | string flags fieldWidth precision memory => exact length_string flags fieldWidth defined
  | double fieldWidth precision value =>
      obtain ⟨width, figures, formatted⟩ := bufFormat_of_short defined
      refine ⟨(fixed width figures value).take 63, ?_, ?_⟩
      · rw [Piece.text, formatted]
        rfl
      · rw [List.length_take, Piece.size, formatted]
  | count => exact ⟨[], rfl, rfl⟩
  | integer num base fieldWidth precision flags =>
      exact length_number ⟨defined.1, defined.2.1⟩ defined.2.2 fieldWidth precision

theorem Piece.text_of_not_defined {piece : Piece δ} (lacks : ¬ piece.Defined) :
    piece.text fixed = .error .undefined := by
  cases piece with
  | plain bytes => exact absurd trivial lacks
  | character flags fieldWidth value => exact absurd trivial lacks
  | string flags fieldWidth precision memory =>
      rw [Piece.text, Fprintf.string, strnlen_of_not_ends lacks]
      rfl
  | double fieldWidth precision value =>
      rw [Piece.text, bufFormat_of_long lacks]
      rfl
  | count => exact absurd trivial lacks
  | integer num base fieldWidth precision flags => exact number_undefined lacks fieldWidth precision

theorem textOf_of_defined {pieces : List (Piece δ)} (defined : ∀ piece ∈ pieces, piece.Defined) :
    ∃ text, textOf fixed pieces = .ok text ∧ text.length = (pieces.map (Piece.size fixed)).sum := by
  induction pieces with
  | nil => exact ⟨[], rfl, rfl⟩
  | cons piece pieces ih =>
      obtain ⟨text, written, size⟩ := Piece.text_of_defined fixed (defined piece List.mem_cons_self)
      obtain ⟨rest, later, sizes⟩ := ih fun other member => defined other (List.mem_cons_of_mem _ member)
      refine ⟨text ++ rest, ?_, ?_⟩
      · rw [textOf, written, later]
        rfl
      · rw [List.length_append, size, sizes, List.map_cons, List.sum_cons]

theorem defined_of_textOf {pieces : List (Piece δ)} {text : Bytes} (written : textOf fixed pieces = .ok text) :
    ∀ piece ∈ pieces, piece.Defined := by
  induction pieces generalizing text with
  | nil => simp
  | cons piece pieces ih =>
      rw [textOf, Outcome.bind_ok_iff] at written
      obtain ⟨first, here, later⟩ := written
      obtain ⟨rest, more, _⟩ := Outcome.bind_ok_iff.mp later
      intro other member
      rcases List.mem_cons.mp member with rfl | behind
      · by_contra lacks
        rw [Piece.text_of_not_defined lacks] at here
        cases here
      · exact ih more other behind

section Fuel

variable {format rest : Bytes} {args more : List (Arg δ)}

theorem length_skipAtoi {i value : Nat} (skipped : skipAtoi i format = .ok (value, rest)) :
    rest.length ≤ format.length := by
  induction format generalizing i with
  | nil =>
      cases skipped
      exact Nat.le_refl _
  | cons byte format ih =>
      rw [skipAtoi] at skipped
      split at skipped
      case isTrue =>
          split at skipped
          case isTrue => exact Nat.le_succ_of_le (ih skipped)
          case isFalse => cases skipped
      case isFalse =>
          cases skipped
          exact Nat.le_refl _

theorem length_processFlags (flags : Flags) (format : Bytes) :
    (processFlags flags format).2.length ≤ format.length := by
  induction format generalizing flags with
  | nil => exact Nat.le_refl _
  | cons byte format ih =>
      rw [processFlags]
      split
      case h_1 raised _ => exact Nat.le_succ_of_le (ih raised)
      case h_2 => exact Nat.le_refl _

theorem length_getFieldWidth {flags after : Flags} {width : Int}
    (got : getFieldWidth flags format args = .ok (after, width, rest, more)) : rest.length ≤ format.length := by
  unfold getFieldWidth at got
  split at got
  case h_1 =>
      cases got
      exact Nat.le_refl _
  case h_2 byte format =>
      split at got
      case isTrue =>
          obtain ⟨⟨value, behind⟩, skipped, same⟩ := Outcome.bind_ok_iff.mp got
          cases same
          exact length_skipAtoi skipped
      case isFalse =>
          split at got
          case isTrue =>
              obtain ⟨⟨value, others⟩, _, same⟩ := Outcome.bind_ok_iff.mp got
              dsimp only at same
              split at same
              case isTrue =>
                  split at same <;> cases same
                  exact Nat.le_succ _
              case isFalse =>
                  cases same
                  exact Nat.le_succ _
          case isFalse =>
              cases got
              exact Nat.le_refl _

theorem length_getPrecision {precision : Int} (got : getPrecision format args = .ok (precision, rest, more)) :
    rest.length ≤ format.length := by
  unfold getPrecision at got
  split at got
  case h_1 =>
      cases got
      exact Nat.le_refl _
  case h_2 byte format =>
      split at got
      case isTrue =>
          split at got
          case h_1 =>
              cases got
              exact Nat.zero_le _
          case h_2 next format =>
              split at got
              case isTrue =>
                  obtain ⟨⟨value, behind⟩, skipped, same⟩ := Outcome.bind_ok_iff.mp got
                  cases same
                  exact Nat.le_succ_of_le (length_skipAtoi skipped)
              case isFalse =>
                  split at got
                  case isTrue =>
                      obtain ⟨⟨value, others⟩, _, same⟩ := Outcome.bind_ok_iff.mp got
                      cases same
                      exact Nat.le_succ_of_le (Nat.le_succ _)
                  case isFalse =>
                      cases got
                      exact Nat.le_succ _
      case isFalse =>
          cases got
          exact Nat.le_refl _

theorem length_getQualifier (format : Bytes) : (getQualifier format).2.length ≤ format.length := by
  unfold getQualifier
  split
  case h_1 => exact Nat.le_refl _
  case h_2 byte format =>
      split
      case isTrue =>
          split
          case h_1 => exact Nat.zero_le _
          case h_2 next format =>
              split
              case isTrue => exact Nat.le_succ_of_le (Nat.le_succ _)
              case isFalse => exact Nat.le_succ _
      case isFalse =>
          split
          case isTrue => exact Nat.le_succ _
          case isFalse =>
              split
              case isTrue => exact Nat.le_succ _
              case isFalse => exact Nat.le_refl _

theorem length_conversion {flags : Flags} {fieldWidth precision : Int} {qualifier : Option Qualifier}
    {piece : Piece δ}
    (read : conversion flags fieldWidth precision qualifier format args = .ok (piece, rest, more)) :
    rest.length ≤ format.length := by
  unfold conversion at read
  split at read
  case h_1 =>
      cases read
      exact Nat.le_refl _
  case h_2 byte format =>
      split at read
      case h_1 | h_2 | h_3 | h_4 | h_5 | h_7 =>
          obtain ⟨_, _, same⟩ := Outcome.bind_ok_iff.mp read
          cases same
          exact Nat.le_succ _
      case h_6 | h_8 =>
          cases read
          exact Nat.le_succ _

theorem length_turn {byte : UInt8} {piece : Piece δ} (read : turn byte format args = .ok (piece, rest, more)) :
    rest.length ≤ format.length := by
  unfold turn at read
  split at read
  case isTrue =>
      cases read
      exact Nat.le_refl _
  case isFalse =>
      obtain ⟨⟨flags, width, behindWidth, others⟩, widthGot, read⟩ := Outcome.bind_ok_iff.mp read
      obtain ⟨⟨precision, behindPrecision, others⟩, precisionGot, read⟩ := Outcome.bind_ok_iff.mp read
      calc
        rest.length ≤ (getQualifier behindPrecision).2.length := length_conversion read
        _ ≤ behindPrecision.length := length_getQualifier behindPrecision
        _ ≤ behindWidth.length := length_getPrecision precisionGot
        _ ≤ (processFlags {} format).2.length := length_getFieldWidth widthGot
        _ ≤ format.length := length_processFlags {} format

/-- The fuel of the loop is no limit: more of it reads the same. -/
theorem turns_fuel {fuel : Nat} (enough : format.length ≤ fuel) (args : List (Arg δ)) :
    turns fuel format args = turns format.length format args := by
  have same : ∀ (left right : Nat) (format : Bytes) (args : List (Arg δ)), format.length ≤ left →
      format.length ≤ right → turns left format args = turns right format args := by
    intro left
    induction left with
    | zero =>
        intro right format args few _
        rw [List.eq_nil_of_length_eq_zero (Nat.le_zero.mp few)]
        cases right <;> rfl
    | succ left ih =>
        intro right format args few many
        cases format with
        | nil => cases right <;> rfl
        | cons byte format =>
            cases right with
            | zero => cases many
            | succ right =>
                rw [turns, turns]
                cases read : turn byte format args with
                | error fault => rfl
                | ok value =>
                    obtain ⟨piece, rest, more⟩ := value
                    have shorter := length_turn read
                    have later := ih right rest more (Nat.le_trans shorter (Nat.le_of_succ_le_succ few))
                      (Nat.le_trans shorter (Nat.le_of_succ_le_succ many))
                    simp only [bind, Except.bind, later]
  exact same fuel format.length format args enough (Nat.le_refl _)

end Fuel

section Lines

variable {capacity : Nat} {format : Bytes} {args : List (Arg δ)}

/-- The call writes into `dataStr` only, or returns -1 and puts nothing into the
FIFO. -/
def StaysInside (fixed : Option Nat → Option Nat → δ → Bytes) (allocated triggered : Bool)
    (fifo : BoundedQueue Bytes capacity) (format : Bytes) (args : List (Arg δ)) : Prop :=
  ∃ finished, wrapFprintf fixed allocated triggered fifo format args = .ok finished ∧
    (finished.written.length ≤ maxDataStrLen ∨ finished.ret = -1 ∧ finished.fifo = fifo)

theorem wrapFprintf_of_text {pieces : List (Piece δ)} {text : Bytes} (triggered : Bool)
    (fifo : BoundedQueue Bytes capacity) (read : turns format.length format args = .ok pieces)
    (written : textOf fixed pieces = .ok text) :
    wrapFprintf fixed true triggered fifo format args =
      if (text ++ [0]).length ≤ maxDataStrLen then
        match fifo.put (cString text) with
        | (fifo, .stored) =>
            .ok { ret := if triggered then 0 else -1, written := text ++ [0], fifo, counts := countsOf fixed 0 pieces }
        | (fifo, _) => .ok { ret := -1, written := text ++ [0], fifo, counts := countsOf fixed 0 pieces }
      else
        .error .undefined := by
  rw [wrapFprintf, if_pos rfl, read]
  simp only [bind, Except.bind, written]
  rfl

/-- A line stays inside `dataStr` exactly where every conversion is defined on
its argument and the fields together are shorter than the block. -/
theorem stays_inside_iff (fixed : Option Nat → Option Nat → δ → Bytes) (allocated triggered : Bool)
    (fifo : BoundedQueue Bytes capacity) (format : Bytes) (args : List (Arg δ)) :
    StaysInside fixed allocated triggered fifo format args ↔
      allocated = false ∨
        ∃ pieces, turns format.length format args = .ok pieces ∧ (∀ piece ∈ pieces, piece.Defined) ∧
          (pieces.map (Piece.size fixed)).sum < maxDataStrLen := by
  cases allocated with
  | false =>
      refine iff_of_true ⟨_, rfl, .inl ?_⟩ (.inl rfl)
      exact Nat.zero_le _
  | true =>
      rw [or_iff_right (by decide)]
      constructor
      · rintro ⟨finished, call, _⟩
        rw [wrapFprintf, if_pos rfl, Outcome.bind_ok_iff] at call
        obtain ⟨pieces, read, call⟩ := call
        obtain ⟨text, written, call⟩ := Outcome.bind_ok_iff.mp call
        have defined := defined_of_textOf written
        obtain ⟨same, again, size⟩ := @textOf_of_defined δ fixed pieces defined
        rw [written] at again
        cases again
        refine ⟨pieces, read, defined, ?_⟩
        rw [← size]
        dsimp only at call
        split at call
        case isTrue fits => simpa using fits
        case isFalse => cases call
      · rintro ⟨pieces, read, defined, room⟩
        obtain ⟨text, written, size⟩ := @textOf_of_defined δ fixed pieces defined
        have fits : (text ++ [0]).length ≤ maxDataStrLen := by
          rw [List.length_append, size]
          exact room
        rw [StaysInside, wrapFprintf_of_text triggered fifo read written, if_pos fits]
        split
        case h_1 => exact ⟨_, rfl, .inl fits⟩
        case h_2 => exact ⟨_, rfl, .inl fits⟩

theorem shown_replicate {byte : UInt8} (count : Nat) (nonzero : byte ≠ 0) :
    shown (List.replicate count byte ++ [0]) (-1) = count := by
  rw [shown, if_neg (by decide), cString, List.takeWhile_append_of_pos (by simp [nonzero])]
  simp

theorem leaves_block {address : UInt64} {memory : Bytes} (ends : 0 ∈ memory) (long : shown memory (-1) = maxDataStrLen)
    (triggered : Bool) (fifo : BoundedQueue Bytes capacity) :
    ¬ StaysInside fixed true triggered fifo [percent, 115] [.pointer address memory] := by
  rintro ⟨finished, call, _⟩
  have read : turns [percent, 115].length [percent, 115] [.pointer address memory] =
      .ok [(.string {} (-1) (-1) memory : Piece δ)] := rfl
  obtain ⟨text, written, size⟩ := @textOf_of_defined δ fixed [.string {} (-1) (-1) memory] fun piece member => by
    rw [List.mem_singleton.mp member]
    exact .inl ends
  have length : text.length = maxDataStrLen := by
    rw [size, List.map_singleton, List.sum_singleton, Piece.size, long]
    decide
  rw [wrapFprintf_of_text triggered fifo read written,
    if_neg (by rw [List.length_append, length]; decide)] at call
  cases call

/-- A command line of 2048 characters. -/
theorem long_string_leaves_block :
    ¬ StaysInside (fun _ _ (_ : Unit) => []) true true (BoundedQueue.empty : BoundedQueue Bytes 16)
      [percent, 115] [.pointer 4096 (List.replicate 2048 97 ++ [0])] :=
  leaves_block (List.mem_append_right _ (List.mem_singleton_self 0)) (shown_replicate 2048 (by decide)) true _

end Lines

end GalaGopher.Probe.Fprintf
