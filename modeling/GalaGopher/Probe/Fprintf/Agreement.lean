import GalaGopher.Probe.Fprintf.Integers
import Mathlib.Data.List.TakeWhile

namespace GalaGopher.Probe.Fprintf.Standard

open Data Text

variable {δ : Type} {fixed : Option Nat → Option Nat → δ → Bytes}

theorem Width.read_value {width : Width} {fieldWidth : Int} (read : width.read = .ok fieldWidth) :
    fieldWidth.toNat = width.value := by
  cases width with
  | absent =>
      cases read
      rfl
  | literal lead rest =>
      rw [Width.read] at read
      split at read <;> cases read
      rfl
  | star value =>
      rw [Width.read] at read
      split at read <;> cases read
      rfl

theorem Width.read_of_short {width : Width} (short : width.value < maxDataStrLen) :
    ∃ fieldWidth, width.read = .ok fieldWidth := by
  unfold maxDataStrLen at short
  cases width with
  | absent => exact ⟨_, rfl⟩
  | literal lead rest =>
      have fits : numeral (Width.digits lead rest) + 48 ≤ intMax := by
        rw [Width.value] at short
        unfold intMax
        omega
      exact ⟨_, if_pos fits⟩
  | star value =>
      have most : ¬ value.toInt = -(intMax + 1) := by
        rw [Width.value] at short
        unfold intMax
        omega
      exact ⟨_, if_neg most⟩

/-- The precision is no number that overflows where it is read. -/
def Precision.Reads : Precision → Prop
  | .literal digits => numeral digits + 48 ≤ intMax
  | .absent | .star _ _ => True

theorem Precision.read_iff (precision : Precision) : (∃ figures, precision.read = .ok figures) ↔ precision.Reads := by
  cases precision with
  | absent => exact iff_of_true ⟨_, rfl⟩ trivial
  | literal digits =>
      rw [Precision.read, Precision.Reads]
      split
      case isTrue fits => exact iff_of_true ⟨_, rfl⟩ fits
      case isFalse overflows => exact iff_of_false (by simp) overflows
  | star value nonneg => exact iff_of_true ⟨_, rfl⟩ trivial

/-- The precision as the code has it. -/
def codePrecision : Option Nat → Int
  | none => -1
  | some limit => limit

theorem Precision.read_value {precision : Precision} {figures : Int} (read : precision.read = .ok figures) :
    figures = codePrecision precision.value := by
  cases precision with
  | absent =>
      cases read
      rfl
  | literal digits =>
      rw [Precision.read] at read
      split at read <;> cases read
      rfl
  | star value nonneg =>
      cases read
      exact (Int.toNat_of_nonneg nonneg).symm

theorem codePrecision_toNat (precision : Option Nat) : (codePrecision precision).toNat = precision.getD 0 := by
  cases precision <;> rfl

theorem Precision.reads_of_short {precision : Precision} (short : precision.value.getD 0 < maxDataStrLen) :
    precision.Reads := by
  unfold maxDataStrLen at short
  cases precision with
  | absent => trivial
  | literal digits =>
      change numeral digits < 2048 at short
      change numeral digits + 48 ≤ 2147483647
      omega
  | star value nonneg => trivial

/-- Spaces on the one side or on the other -/
theorem spaces_eq (left : Bool) (fieldWidth : Int) (text : Bytes) :
    (if left then [] else pad Text.space (fieldWidth - text.length)) ++ text ++
        pad Text.space (if left then fieldWidth - text.length else spent (fieldWidth - text.length)) =
      justified left false fieldWidth.toNat [] text := by
  have gap : fieldWidth.toNat - (([] : Bytes).length + text.length) = (fieldWidth - text.length).toNat := by
    rw [List.length_nil]
    omega
  cases left with
  | true =>
      rw [justified_left, gap]
      rfl
  | false =>
      simp only [Bool.false_eq_true, if_false, pad_spent, List.append_nil]
      rw [justified_right, gap, List.append_nil]
      rfl

theorem character_eq (flags : Flags) (fieldWidth : Int) (value : UInt32) :
    character flags fieldWidth value = justified flags.left false fieldWidth.toNat [] [value.toUInt8] :=
  spaces_eq flags.left fieldWidth [value.toUInt8]

/-- The string up to the limit. -/
def limited (limit : Option Nat) (text : Bytes) : Bytes :=
  match limit with
  | none => text
  | some count => text.take count

theorem take_shown (memory : Bytes) (limit : Option Nat) :
    memory.take (shown memory (codePrecision limit)) = limited limit (cString memory) := by
  have start : cString memory = memory.take (cString memory).length :=
    List.prefix_iff_eq_take.mp (List.takeWhile_prefix _)
  cases limit with
  | none =>
      change memory.take (shown memory (-1)) = _
      rw [shown, if_neg (by decide)]
      exact start.symm
  | some count =>
      change memory.take (shown memory (count : Int)) = (cString memory).take count
      rw [shown, if_pos (Int.natCast_nonneg count), Int.toNat_natCast]
      conv_rhs => rw [start]
      rw [List.take_take]

theorem asInt_of_short {size : Nat} (short : size < maxDataStrLen) : asInt size = size := by
  unfold maxDataStrLen at short
  unfold asInt
  rw [Int.bmod_def]
  split <;> omega

theorem length_take_shown (memory : Bytes) (precision : Int) :
    (memory.take (shown memory precision)).length = shown memory precision := by
  rw [List.length_take, Nat.min_eq_left (shown_le memory precision)]

/-- The string ends, or it is read no further than it is long. -/
def Ends (limit : Option Nat) (memory : Bytes) : Prop :=
  0 ∈ memory ∨ 0 ≤ codePrecision limit ∧ codePrecision limit ≤ memory.length

theorem string_eq (flags : Flags) (fieldWidth : Int) {memory : Bytes} {limit : Option Nat}
    (ends : Ends limit memory) (short : (limited limit (cString memory)).length < maxDataStrLen) :
    string flags fieldWidth (codePrecision limit) memory =
      .ok (justified flags.left false fieldWidth.toNat [] (limited limit (cString memory))) := by
  have length := length_take_shown memory (codePrecision limit)
  have shows := take_shown memory limit
  rw [shows] at length
  rw [← spaces_eq, string, strnlen_of_ends ends]
  simp only [bind, Except.bind, pure, Except.pure, ← length, asInt_of_short short, Int.toNat_natCast]
  rw [length, shows]

theorem zero_not_mem_limited (limit : Option Nat) (memory : Bytes) : 0 ∉ limited limit (cString memory) := by
  have nonzero : 0 ∉ cString memory := by
    intro member
    have passes := List.all_eq_true.mp List.all_takeWhile 0 member
    simp at passes
  cases limit with
  | none => exact nonzero
  | some count => exact fun member => nonzero (List.mem_of_mem_take member)

theorem cString_cons (byte : UInt8) (rest : Bytes) :
    cString (byte :: rest) = if byte = 0 then [] else byte :: cString rest := by
  unfold cString
  split
  case isTrue zero => simp [zero]
  case isFalse nonzero => simp [nonzero]

theorem ends_of_zero_limit (memory : Bytes) : Ends (some 0) memory :=
  .inr ⟨Int.le_refl 0, Int.natCast_nonneg memory.length⟩

theorem narrowText_cons {limit : Option Nat} (more : limit ≠ some 0) (byte : UInt8) (rest : Bytes) :
    narrowText limit (byte :: rest) =
      if byte = 0 then some [] else (narrowText (limit.map (· - 1)) rest).map (byte :: ·) := by
  rcases limit with _ | _ | count
  · rfl
  · exact absurd rfl more
  · rfl

theorem limited_cons {limit : Option Nat} (more : limit ≠ some 0) (byte : UInt8) (text : Bytes) :
    limited limit (byte :: text) = byte :: limited (limit.map (· - 1)) text := by
  rcases limit with _ | _ | count
  · rfl
  · exact absurd rfl more
  · rfl

theorem limited_nil (limit : Option Nat) : limited limit [] = [] := by
  cases limit with
  | none => rfl
  | some count => exact List.take_nil

theorem Ends.cons {limit : Option Nat} {rest : Bytes} (more : limit ≠ some 0) (byte : UInt8)
    (ends : Ends (limit.map (· - 1)) rest) : Ends limit (byte :: rest) := by
  rcases ends with member | ⟨nonneg, within⟩
  · exact .inl (List.mem_cons_of_mem _ member)
  · rcases limit with _ | _ | count
    · exact absurd nonneg (by decide)
    · exact absurd rfl more
    · refine .inr ⟨Int.natCast_nonneg (count + 1), ?_⟩
      change (count : Int) ≤ rest.length at within
      change ((count + 1 : Nat) : Int) ≤ (byte :: rest).length
      rw [List.length_cons]
      omega

theorem narrowText_zero (memory : Bytes) : narrowText (some 0) memory = some [] := by
  cases memory <;> rfl

/-- The standard reads a narrow string as the code does. -/
theorem narrowText_eq {limit : Option Nat} {memory text : Bytes} (read : narrowText limit memory = some text) :
    Ends limit memory ∧ text = limited limit (cString memory) := by
  induction memory generalizing limit text with
  | nil =>
      rcases limit with _ | _ | count
      · cases read
      · cases read
        exact ⟨ends_of_zero_limit [], rfl⟩
      · cases read
  | cons byte rest ih =>
      by_cases nothing : limit = some 0
      · subst nothing
        cases (narrowText_zero _).symm.trans read
        exact ⟨ends_of_zero_limit _, rfl⟩
      · rw [narrowText_cons nothing] at read
        rw [cString_cons]
        split at read
        case isTrue zero =>
            cases read
            exact ⟨.inl (zero ▸ List.mem_cons_self), by rw [if_pos zero, limited_nil]⟩
        case isFalse nonzero =>
            obtain ⟨tail, behind, rfl⟩ := Option.map_eq_some_iff.mp read
            obtain ⟨ends, rfl⟩ := ih behind
            exact ⟨ends.cons nothing byte, by rw [if_neg nonzero, limited_cons nothing]⟩

theorem wideText_cons {limit : Option Nat} (more : limit ≠ some 0) (byte second third fourth : UInt8) (rest : Bytes) :
    wideText limit (byte :: second :: third :: fourth :: rest) =
      if second = 0 ∧ third = 0 ∧ fourth = 0 ∧ byte < 128 then
        if byte = 0 then some [] else (wideText (limit.map (· - 1)) rest).map (byte :: ·)
      else
        none := by
  rcases limit with _ | _ | count
  · rfl
  · exact absurd rfl more
  · rfl

theorem wideText_short {limit : Option Nat} (more : limit ≠ some 0) {memory : Bytes} (short : memory.length < 4) :
    wideText limit memory = none := by
  unfold wideText
  split
  case h_1 => exact absurd rfl more
  case h_2 =>
      simp only [List.length_cons] at short
      omega
  case h_3 => rfl

/-- It reads a wide string so where that is one character at most. -/
theorem wideText_eq {limit : Option Nat} {memory text : Bytes} (read : wideText limit memory = some text)
    (single : text.length ≤ 1) : Ends limit memory ∧ text = limited limit (cString memory) := by
  by_cases nothing : limit = some 0
  · subst nothing
    have empty : wideText (some 0) memory = some [] := by
      unfold wideText
      rfl
    cases empty.symm.trans read
    exact ⟨ends_of_zero_limit memory, rfl⟩
  · match memory with
    | [] | [_] | [_, _] | [_, _, _] =>
        rw [wideText_short nothing (by simp)] at read
        cases read
    | byte :: second :: third :: fourth :: rest =>
        rw [wideText_cons nothing] at read
        split at read
        case isFalse => cases read
        case isTrue basic =>
            obtain ⟨rfl, rfl, rfl, _⟩ := basic
            refine ⟨.inl (by simp), ?_⟩
            split at read
            case isTrue zero =>
                cases read
                rw [cString_cons, if_pos zero, limited_nil]
            case isFalse nonzero =>
                obtain ⟨tail, _, rfl⟩ := Option.map_eq_some_iff.mp read
                have last : tail = [] := List.eq_nil_of_length_eq_zero (Nat.le_zero.mp (Nat.le_of_succ_le_succ single))
                rw [cString_cons, if_neg nonzero, limited_cons nothing, cString_cons, if_pos rfl, limited_nil, last]

/-- When a directive prints as the standard says. -/
def Directive.Agrees (directive : Directive) : Prop :=
  match directive.operand with
  | .integer letter bits => directive.IntegerAgrees letter (directive.value letter bits)
  | .character value => directive.length = .absent → value.toUInt8 ≠ 0
  | .string _ memory =>
      directive.precision.Reads ∧
        (directive.length = .l → ∀ text, wideText directive.precision.value memory = some text → text.length ≤ 1)
  | .percent => True

/-- `%ls` -/
def Directive.Wide (directive : Directive) : Prop :=
  directive.length = .l ∧ ∃ address memory, directive.operand = .string address memory

/-- What is printed for an item, beside the text of the standard. -/
structure Compares (agrees wide : Prop) (fixed : Option Nat → Option Nat → δ → Bytes) (piece : Outcome (Piece δ))
    (text : Bytes) : Prop where
  prints : agrees → ∃ printed, piece = .ok printed ∧ printed.text fixed = .ok text ∧ 0 ∉ text
  exact : ¬ wide → ∀ printed code, piece = .ok printed → printed.text fixed = .ok code →
    text.length ≤ code.length ∧ (0 ∈ code → 0 ∈ text) ∧ (code = text → 0 ∉ text → agrees)

section Directives

variable {directive : Directive} {text : Bytes}

theorem piece_eq {width precision : Int} (readWidth : directive.width.read = .ok width)
    (readPrecision : directive.precision.read = .ok precision) :
    (directive.piece : Outcome (Piece δ)) =
      .ok (directive.operand.piece directive.length directive.codeFlags width precision) := by
  rw [Directive.piece, readWidth, readPrecision]
  rfl

theorem piece_ok {printed : Piece δ} (read : directive.piece = .ok printed) :
    ∃ width precision, directive.width.read = .ok width ∧ directive.precision.read = .ok precision ∧
      printed = directive.operand.piece directive.length directive.codeFlags width precision := by
  obtain ⟨width, readWidth, rest⟩ := Outcome.bind_ok_iff.mp read
  obtain ⟨precision, readPrecision, same⟩ := Outcome.bind_ok_iff.mp rest
  cases same
  exact ⟨width, precision, readWidth, readPrecision, rfl⟩

theorem le_length_justified (left fill : Bool) (width : Nat) (head body : Bytes) :
    width ≤ (justified left fill width head body).length ∧
      body.length ≤ (justified left fill width head body).length := by
  rw [length_justified]
  exact ⟨Nat.le_max_left _ _, Nat.le_trans (Nat.le_add_left _ _) (Nat.le_max_right _ _)⟩

theorem le_length_precise (letter : Integer) (precision : Option Nat) (number : Nat) :
    precision.getD 0 ≤ (precise letter precision number).length := by
  by_cases nothing : number = 0 ∧ precision = some 0
  · rw [nothing.2]
    exact Nat.zero_le _
  · rw [precise_eq letter nothing, List.length_append, List.length_replicate]
    omega

theorem le_length_integerText (letter : Integer) (width : Nat) (value : Int) :
    width ≤ (directive.integerText letter width value).length ∧
      directive.precision.value.getD 0 ≤ (directive.integerText letter width value).length := by
  have bounds := le_length_justified directive.left (directive.has .zero && directive.precision.value.isNone) width
    (directive.signBytes letter value ++ directive.radixBytes letter value) (directive.integerDigits letter value)
  refine ⟨bounds.1, Nat.le_trans ?_ bounds.2⟩
  have digits := le_length_precise letter directive.precision.value value.natAbs
  unfold Directive.integerDigits
  dsimp only
  split
  case isTrue =>
      unfold octal
      split
      case isTrue => exact digits
      case isFalse => exact Nat.le_succ_of_le digits
  case isFalse => exact digits

/-- What `__number` makes of the piece of an integer. -/
theorem text_integer {letter : Integer} {bits : UInt64} {width precision : Int}
    (opposite : directive.value letter bits ≠ -2 ^ 63) (readWidth : directive.width.read = .ok width)
    (readPrecision : directive.precision.read = .ok precision) :
    ((Operand.integer letter bits).piece directive.length directive.codeFlags width precision : Piece δ).text fixed =
      .ok (directive.numberText letter directive.width.value (directive.value letter bits)) := by
  have written := number_directive width precision opposite
  rw [Width.read_value readWidth, Precision.read_value readPrecision, codePrecision_toNat] at written
  rw [Precision.read_value readPrecision]
  exact written

theorem opposite_of_text {letter : Integer} {bits : UInt64} {width precision : Int} {code : Bytes}
    (written : ((Operand.integer letter bits).piece directive.length directive.codeFlags width precision :
      Piece δ).text fixed = .ok code) : directive.value letter bits ≠ -2 ^ 63 := by
  by_contra least
  have lacks := opposite_iff.not.mpr (not_not_intro least)
  have undefined : number (directive.length.num letter.signed bits) letter.base width precision
      (directive.integerFlags letter) = .error .undefined :=
    number_undefined (fun valid => lacks valid.2.2) width precision
  cases undefined.symm.trans written

theorem compares_integer {letter : Integer} {bits : UInt64} (operand : directive.operand = .integer letter bits)
    (written : directive.written = some text) (short : text.length < maxDataStrLen) :
    Compares directive.Agrees directive.Wide fixed directive.piece text := by
  rw [Directive.written, operand] at written
  dsimp only at written
  split at written
  case isTrue => cases written
  case isFalse defined =>
      cases written
      have meaning : directive.Agrees ↔ directive.IntegerAgrees letter (directive.value letter bits) := by
        rw [Directive.Agrees, operand]
      rw [meaning]
      refine { prints := fun agrees => ?_, exact := fun _ printed code read text => ?_ }
      · have bounds := @le_length_integerText directive letter directive.width.value (directive.value letter bits)
        obtain ⟨width, readWidth⟩ := Width.read_of_short (Nat.lt_of_le_of_lt bounds.1 short)
        obtain ⟨precision, readPrecision⟩ :=
          directive.precision.read_iff.mpr (Precision.reads_of_short (Nat.lt_of_le_of_lt bounds.2 short))
        have same := (numberText_eq_iff agrees.opposite defined).mpr agrees
        refine ⟨_, piece_eq readWidth readPrecision, ?_, ?_⟩
        · rw [operand, text_integer agrees.opposite readWidth readPrecision, same]
        · rw [← same]
          exact zero_not_mem_numberText _ _ _ _
      · obtain ⟨width, precision, readWidth, readPrecision, rfl⟩ := piece_ok read
        rw [operand] at text
        have opposite := opposite_of_text text
        cases (text_integer opposite readWidth readPrecision).symm.trans text
        refine ⟨length_integerText_le _ _ _ _, fun member => ?_, fun same _ => ?_⟩
        · exact absurd member (zero_not_mem_numberText _ _ _ _)
        · exact (numberText_eq_iff opposite defined).mp same

theorem characterText_eq {value : UInt32} {shown : Bytes} (read : directive.characterText value = some shown) :
    shown = [value.toUInt8] ∧ directive.precision.Reads ∧ (directive.length = .absent ∨ value.toUInt8 ≠ 0) := by
  unfold Directive.characterText at read
  split at read
  case isTrue => cases read
  case isFalse bare =>
      have absent : directive.precision.Reads := by
        cases precision : directive.precision with
        | absent => trivial
        | literal digits => simp [precision, Precision.value] at bare
        | star value nonneg => trivial
      split at read
      case h_1 narrow =>
          cases read
          exact ⟨rfl, absent, .inl narrow⟩
      case h_2 wide =>
          split at read
          case isFalse => cases read
          case isTrue basic =>
              cases read
              refine ⟨rfl, absent, .inr fun zero => ?_⟩
              have low := congrArg UInt8.toNat zero
              have positive := UInt32.lt_iff_toNat_lt.mp basic.1
              have small := UInt32.lt_iff_toNat_lt.mp basic.2
              rw [UInt32.toNat_toUInt8] at low
              change value.toNat % 256 = 0 at low
              change 0 < value.toNat at positive
              change value.toNat < 128 at small
              omega
      case h_3 => cases read
      case h_4 => cases read

/-- The string as the code reads it, where it has one wide character at most. -/
theorem stringText_eq {memory shown : Bytes} (read : directive.stringText memory = some shown)
    (single : directive.length = .l → ∀ text, wideText directive.precision.value memory = some text → text.length ≤ 1) :
    Ends directive.precision.value memory ∧ shown = limited directive.precision.value (cString memory) := by
  unfold Directive.stringText at read
  split at read
  case isTrue => cases read
  case isFalse =>
      split at read
      case h_1 => exact narrowText_eq read
      case h_2 wide => exact wideText_eq read (single wide _ read)
      case h_3 => cases read
      case h_4 => cases read

theorem compares_character {value : UInt32} (operand : directive.operand = .character value)
    (written : directive.written = some text) (short : text.length < maxDataStrLen) :
    Compares directive.Agrees directive.Wide fixed directive.piece text := by
  rw [Directive.written, operand] at written
  obtain ⟨shown, character, rfl⟩ := Option.map_eq_some_iff.mp written
  have meaning : directive.Agrees ↔ (directive.length = .absent → value.toUInt8 ≠ 0) := by
    rw [Directive.Agrees, operand]
  obtain ⟨rfl, bare, kind⟩ := characterText_eq character
  have texted (width precision : Int) (readWidth : directive.width.read = .ok width) :
      (directive.operand.piece directive.length directive.codeFlags width precision : Piece δ).text fixed =
        .ok (justified directive.left false directive.width.value [] [value.toUInt8]) := by
    rw [operand, ← Width.read_value readWidth]
    exact congrArg Except.ok (character_eq _ _ _)
  have bounds := le_length_justified directive.left false directive.width.value [] [value.toUInt8]
  rw [meaning]
  refine { prints := fun agrees => ?_, exact := fun _ printed code read text => ?_ }
  · obtain ⟨width, readWidth⟩ := Width.read_of_short (Nat.lt_of_le_of_lt bounds.1 short)
    obtain ⟨precision, readPrecision⟩ := directive.precision.read_iff.mpr bare
    refine ⟨_, piece_eq readWidth readPrecision, texted width precision readWidth, fun member => ?_⟩
    have nonzero : value.toUInt8 ≠ 0 := by
      rcases kind with narrow | basic
      · exact agrees narrow
      · exact basic
    rcases mem_of_mem_justified member with space | zero | head | body
    · exact absurd space (by decide)
    · exact absurd zero (by decide)
    · cases head
    · exact nonzero (List.mem_singleton.mp body).symm
  · obtain ⟨width, precision, readWidth, _, rfl⟩ := piece_ok read
    cases (texted width precision readWidth).symm.trans text
    refine ⟨Nat.le_refl _, id, fun _ free _ zero => free ?_⟩
    exact mem_justified (.inr (by rw [zero]; exact List.mem_singleton_self 0))

theorem compares_string {address : UInt64} {memory : Bytes} (operand : directive.operand = .string address memory)
    (written : directive.written = some text) (short : text.length < maxDataStrLen) :
    Compares directive.Agrees directive.Wide fixed directive.piece text := by
  rw [Directive.written, operand] at written
  obtain ⟨shown, read, rfl⟩ := Option.map_eq_some_iff.mp written
  have meaning : directive.Agrees ↔ directive.precision.Reads ∧
      (directive.length = .l → ∀ text, wideText directive.precision.value memory = some text → text.length ≤ 1) := by
    rw [Directive.Agrees, operand]
  have bounds := le_length_justified directive.left false directive.width.value [] shown
  have texted (width precision : Int) (readWidth : directive.width.read = .ok width)
      (readPrecision : directive.precision.read = .ok precision)
      (same : Ends directive.precision.value memory ∧ shown = limited directive.precision.value (cString memory)) :
      (directive.operand.piece directive.length directive.codeFlags width precision : Piece δ).text fixed =
        .ok (justified directive.left false directive.width.value [] shown) := by
    have fits := Nat.lt_of_le_of_lt bounds.2 short
    rw [same.2] at fits ⊢
    rw [operand, ← Width.read_value readWidth, Precision.read_value readPrecision]
    exact string_eq directive.codeFlags width same.1 fits
  rw [meaning]
  refine { prints := fun agrees => ?_, exact := fun narrow printed code found text => ?_ }
  · obtain ⟨width, readWidth⟩ := Width.read_of_short (Nat.lt_of_le_of_lt bounds.1 short)
    obtain ⟨precision, readPrecision⟩ := directive.precision.read_iff.mpr agrees.1
    have same := stringText_eq read agrees.2
    refine ⟨_, piece_eq readWidth readPrecision, texted width precision readWidth readPrecision same, fun member => ?_⟩
    rcases mem_of_mem_justified member with space | zero | head | body
    · exact absurd space (by decide)
    · exact absurd zero (by decide)
    · cases head
    · rw [same.2] at body
      exact zero_not_mem_limited _ _ body
  · obtain ⟨width, precision, readWidth, readPrecision, rfl⟩ := piece_ok found
    have notWide : directive.length ≠ .l := fun wide => narrow ⟨wide, address, memory, operand⟩
    have same := stringText_eq read fun wide => absurd wide notWide
    cases (texted width precision readWidth readPrecision same).symm.trans text
    refine ⟨Nat.le_refl _, id, fun _ _ => ⟨?_, fun wide => absurd wide notWide⟩⟩
    exact directive.precision.read_iff.mp ⟨precision, readPrecision⟩

theorem compares_percent (operand : directive.operand = .percent) (written : directive.written = some text) :
    Compares directive.Agrees directive.Wide fixed directive.piece text := by
  rw [Directive.written, operand] at written
  dsimp only at written
  split at written
  case isFalse => cases written
  case isTrue bare =>
      cases written
      have parts : directive.width.bytes = [] ∧ directive.precision.bytes = [] := by
        have length := congrArg List.length bare
        simp only [Directive.bytes, List.length_append, List.length_singleton] at length
        exact ⟨List.eq_nil_of_length_eq_zero (by omega), List.eq_nil_of_length_eq_zero (by omega)⟩
      have readWidth : directive.width.read = .ok (-1) := by
        cases width : directive.width with
        | absent => rfl
        | literal lead rest => simp [width, Width.bytes, Width.digits] at parts
        | star value => simp [width, Width.bytes] at parts
      have readPrecision : directive.precision.read = .ok (-1) := by
        cases precision : directive.precision with
        | absent => rfl
        | literal digits => simp [precision, Precision.bytes] at parts
        | star value nonneg => simp [precision, Precision.bytes] at parts
      have agrees : directive.Agrees := by
        rw [Directive.Agrees, operand]
        trivial
      refine { prints := fun _ => ?_, exact := fun _ printed code read text => ?_ }
      · refine ⟨_, piece_eq readWidth readPrecision, ?_, by decide⟩
        rw [operand]
        rfl
      · rw [piece_eq readWidth readPrecision, operand] at read
        cases read
        cases text
        exact ⟨Nat.le_refl _, id, fun _ _ => agrees⟩

end Directives

def Item.Agrees : Item → Prop
  | .ordinary _ _ => True
  | .conversion directive => directive.Agrees

def Item.Wide : Item → Prop
  | .ordinary _ _ => False
  | .conversion directive => directive.Wide

theorem compares_item {item : Item} {text : Bytes} (written : item.written = some text)
    (short : text.length < maxDataStrLen) : Compares item.Agrees item.Wide fixed item.piece text := by
  cases item with
  | ordinary byte plain =>
      cases written
      refine { prints := fun _ => ⟨_, rfl, rfl, ?_⟩, exact := fun _ printed code read text => ?_ }
      · exact fun member => plain.1 (List.mem_singleton.mp member).symm
      · cases read
        cases text
        exact ⟨Nat.le_refl _, id, fun _ _ => trivial⟩
  | conversion directive =>
      cases operand : directive.operand with
      | integer letter bits => exact compares_integer operand written short
      | character value => exact compares_character operand written short
      | string address memory => exact compares_string operand written short
      | percent => exact compares_percent operand written

theorem written_cons {item : Item} {items : List Item} {text : Bytes} (settled : written (item :: items) = some text) :
    ∃ first rest, item.written = some first ∧ written items = some rest ∧ text = first ++ rest := by
  obtain ⟨first, here, later⟩ := Option.bind_eq_some_iff.mp settled
  obtain ⟨rest, behind, same⟩ := Option.bind_eq_some_iff.mp later
  cases same
  exact ⟨first, rest, here, behind, rfl⟩

/-- Where every item agrees, the whole line is that of the standard. -/
theorem textOf_of_agrees {items : List Item} {text : Bytes} (settled : written items = some text)
    (short : text.length < maxDataStrLen) (agrees : ∀ item ∈ items, item.Agrees) :
    ∃ printed, pieces items = .ok printed ∧ textOf fixed printed = .ok text ∧ 0 ∉ text := by
  induction items generalizing text with
  | nil =>
      cases settled
      exact ⟨[], rfl, rfl, List.not_mem_nil⟩
  | cons item items ih =>
      obtain ⟨first, rest, here, behind, rfl⟩ := written_cons settled
      rw [List.length_append] at short
      obtain ⟨piece, read, text, free⟩ :=
        (@compares_item δ fixed item first here (by omega)).prints (agrees item List.mem_cons_self)
      obtain ⟨printed, reads, texts, frees⟩ :=
        ih behind (by omega) fun other member => agrees other (List.mem_cons_of_mem _ member)
      refine ⟨piece :: printed, ?_, ?_, ?_⟩
      · rw [pieces, read, reads]
        rfl
      · rw [textOf, text, texts]
        rfl
      · rw [List.mem_append, not_or]
        exact ⟨free, frees⟩

/-- No item makes up for another: none prints less than the standard. -/
theorem agrees_of_textOf {items : List Item} {text code : Bytes} {printed : List (Piece δ)}
    (settled : written items = some text) (short : text.length < maxDataStrLen)
    (narrow : ∀ item ∈ items, ¬ item.Wide) (read : pieces items = .ok printed)
    (texts : textOf fixed printed = .ok code) :
    text.length ≤ code.length ∧ (0 ∈ code → 0 ∈ text) ∧ (code = text → 0 ∉ text → ∀ item ∈ items, item.Agrees) := by
  induction items generalizing text code printed with
  | nil =>
      cases settled
      exact ⟨Nat.zero_le _, fun member => by cases read; cases texts; exact member, fun _ _ _ member => by cases member⟩
  | cons item items ih =>
      obtain ⟨first, rest, here, behind, rfl⟩ := written_cons settled
      obtain ⟨piece, readHere, later⟩ := Outcome.bind_ok_iff.mp read
      obtain ⟨others, readBehind, same⟩ := Outcome.bind_ok_iff.mp later
      cases same
      obtain ⟨head, textHere, later⟩ := Outcome.bind_ok_iff.mp texts
      obtain ⟨tail, textBehind, same⟩ := Outcome.bind_ok_iff.mp later
      cases same
      rw [List.length_append] at short
      obtain ⟨longer, zero, exact⟩ := (@compares_item δ fixed item first here (by omega)).exact
        (narrow item List.mem_cons_self) piece head readHere textHere
      obtain ⟨longerBehind, zeroBehind, exactBehind⟩ :=
        ih behind (by omega) (fun other member => narrow other (List.mem_cons_of_mem _ member)) readBehind textBehind
      refine ⟨?_, fun member => ?_, fun same free other member => ?_⟩
      · rw [List.length_append, List.length_append]
        omega
      · exact List.mem_append.mpr ((List.mem_append.mp member).imp zero zeroBehind)
      · have lengths := congrArg List.length same
        rw [List.length_append, List.length_append] at lengths
        obtain ⟨sameHere, sameBehind⟩ := List.append_inj same (by omega)
        rw [List.mem_append, not_or] at free
        rcases List.mem_cons.mp member with rfl | later
        · exact exact sameHere free.1
        · exact exactBehind sameBehind free.2 other later

/-- The call puts this string into the FIFO. -/
def Prints {capacity : Nat} (fixed : Option Nat → Option Nat → δ → Bytes) (triggered : Bool)
    (fifo : BoundedQueue Bytes capacity) (items : List Item) (extra : List (Arg δ)) (text : Bytes) : Prop :=
  ∃ finished, wrapFprintf fixed true triggered fifo (format items) (arguments items ++ extra) = .ok finished ∧
    finished.fifo.items = fifo.items ++ [text]

theorem cString_of_free {text : Bytes} (free : 0 ∉ text) : cString text = text :=
  List.takeWhile_eq_self_iff.mpr fun byte member => by
    simpa using fun zero : byte = 0 => free (zero ▸ member)

theorem zero_not_mem_cString (text : Bytes) : 0 ∉ cString text := zero_not_mem_limited none text

/-- A line that the standard settles, and that is short enough, goes into the
FIFO as the standard has it where each of its directives agrees; and only there,
as long as no wide string is printed short. -/
theorem prints_standard {capacity : Nat} (fixed : Option Nat → Option Nat → δ → Bytes) (triggered : Bool)
    (fifo : BoundedQueue Bytes capacity) (room : fifo.items.length < capacity) (items : List Item)
    (extra : List (Arg δ)) (text : Bytes) (settled : written items = some text)
    (short : text.length < maxDataStrLen) :
    ((∀ item ∈ items, item.Agrees) → Prints fixed triggered fifo items extra text) ∧
      ((∀ item ∈ items, ¬ item.Wide) → Prints fixed triggered fifo items extra text →
        ∀ item ∈ items, item.Agrees) := by
  constructor
  · intro agrees
    obtain ⟨printed, reads, texts, free⟩ := @textOf_of_agrees δ fixed items text settled short agrees
    rw [← turns_format items extra] at reads
    have fits : (text ++ [0]).length ≤ maxDataStrLen := by
      rw [List.length_append]
      exact short
    have call := wrapFprintf_of_text triggered fifo reads texts
    rw [if_pos fits, cString_of_free free, BoundedQueue.put_stored room] at call
    exact ⟨_, call, rfl⟩
  · rintro narrow ⟨finished, call, put⟩
    rw [wrapFprintf, if_pos rfl, Outcome.bind_ok_iff] at call
    obtain ⟨printed, reads, call⟩ := call
    obtain ⟨code, texts, call⟩ := Outcome.bind_ok_iff.mp call
    rw [turns_format] at reads
    obtain ⟨_, zero, exact⟩ := agrees_of_textOf settled short narrow reads texts
    dsimp only at call
    split at call
    case isFalse => cases call
    case isTrue =>
        rw [BoundedQueue.put_stored room] at call
        cases call
        have same : cString code = text := by simpa using put
        have free : 0 ∉ text := same ▸ zero_not_mem_cString code
        rw [cString_of_free fun member => free (zero member)] at same
        exact exact same free

/-- `|%s|%5d|` with a name and a number -/
theorem prints_standard_line :
    Prints (fun _ _ (_ : Unit) => []) true (BoundedQueue.empty : BoundedQueue Bytes 16)
      [.ordinary bar (by decide), .conversion { operand := .string 4096 [103, 111, 0] }, .ordinary bar (by decide),
        .conversion { width := .literal 4 [], operand := .integer .d 42 }, .ordinary bar (by decide)] []
      [bar, 103, 111, bar, 32, 32, 32, 52, 50, bar] := by
  refine (prints_standard (fun _ _ (_ : Unit) => []) true (BoundedQueue.empty : BoundedQueue Bytes 16) (by decide) _ []
    _ (by decide) (by decide)).1 ?_
  have name : Directive.Agrees { operand := .string 4096 [103, 111, 0] } := ⟨trivial, fun wide => by cases wide⟩
  have number : Directive.IntegerAgrees { width := .literal 4 [], operand := .integer .d 42 } .d 42 := {
    opposite := by decide
    digits := by decide
    fill := fun zero => absurd zero (by decide)
    hexadecimal := fun sharp => absurd sharp (by decide)
    octal := fun sharp => absurd sharp (by decide) }
  simp only [List.forall_mem_cons, List.not_mem_nil, false_implies, implies_true, and_true]
  exact ⟨trivial, name, trivial, number, trivial⟩

/-- `%05.3d` of 7: the precision keeps the zeros out of the field. -/
theorem zeros_despite_precision :
    let item : Item := .conversion
      { flags := [.zero], width := .literal 4 [], precision := .literal [3], operand := .integer .d 7 }
    written [item] = some [32, 32, 48, 48, 55] ∧
      ¬ Prints (fun _ _ (_ : Unit) => []) true (BoundedQueue.empty : BoundedQueue Bytes 16) [item] []
        [32, 32, 48, 48, 55] := by
  refine ⟨by decide, ?_⟩
  rintro ⟨finished, call, put⟩
  have zeros : wrapFprintf (fun _ _ (_ : Unit) => []) true true (BoundedQueue.empty : BoundedQueue Bytes 16)
      [percent, 48, 53, 46, 51, 100] [.int 7] =
      .ok { ret := 0, written := [48, 48, 48, 48, 55, 0], fifo := ⟨[[48, 48, 48, 48, 55]], by decide⟩, counts := [] } := rfl
  cases zeros.symm.trans call
  exact absurd put (by decide)

end GalaGopher.Probe.Fprintf.Standard
