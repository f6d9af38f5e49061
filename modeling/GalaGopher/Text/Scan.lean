import GalaGopher.Text.Options
import Mathlib.Data.List.TakeWhile

namespace GalaGopher.Text

/-- What is behind a `%*s`. -/
def scanWord (text : Bytes) : Option Bytes :=
  let word := text.dropWhile isSpace
  if word = [] then none else some (word.dropWhile fun byte => !isSpace byte)

/-- The number of a `%llu` and what is behind it. -/
def scanLlu (text : Bytes) : Option (UInt64 × Bytes) :=
  let number := text.dropWhile isSpace
  let digits := match number with
    | [] => []
    | sign :: rest => if sign = dash ∨ sign = 43 then rest else number
  if digits.takeWhile isDigit = [] then none
  else some (UInt64.ofNat (strtoul number), digits.dropWhile isDigit)

/-- As many numbers as are there, up to `count`. -/
def scanLlus : Nat → Bytes → List UInt64
  | 0, _ => []
  | count + 1, text =>
      match scanLlu text with
      | none => []
      | some (number, rest) => number :: scanLlus count rest

/-- `%*d` of a printed text. -/
def padLeft (width : Nat) (text : Bytes) : Bytes := List.replicate (width - text.length) space ++ text

variable {text rest : Bytes}

theorem length_padLeft (width : Nat) (text : Bytes) : (padLeft width text).length = max width text.length := by
  rw [padLeft, List.length_append, List.length_replicate]
  omega

theorem dropWhile_spaces (count : Nat) {byte : UInt8} (unspaced : isSpace byte = false) (rest : Bytes) :
    (List.replicate count space ++ byte :: rest).dropWhile isSpace = byte :: rest := by
  induction count with
  | zero => exact List.dropWhile_cons_of_neg (by rw [unspaced]; exact Bool.false_ne_true)
  | succ count ih =>
      rw [List.replicate_succ, List.cons_append, List.dropWhile_cons_of_pos (by decide), ih]

theorem scanWord_padLeft (width : Nat) (filled : text ≠ []) (unspaced : ∀ byte ∈ text, isSpace byte = false)
    {stop : UInt8} (stops : isSpace stop) (rest : Bytes) :
    scanWord (padLeft width text ++ stop :: rest) = some (stop :: rest) := by
  obtain ⟨first, more, rfl⟩ := List.exists_cons_of_ne_nil filled
  have word : (padLeft width (first :: more) ++ stop :: rest).dropWhile isSpace = first :: (more ++ stop :: rest) := by
    rw [padLeft, List.append_assoc, List.cons_append]
    exact dropWhile_spaces _ (unspaced first List.mem_cons_self) _
  have behind : (first :: (more ++ stop :: rest)).dropWhile (fun byte => !isSpace byte) = stop :: rest := by
    rw [← List.cons_append, List.dropWhile_append_of_pos fun byte member => by rw [unspaced byte member]; rfl,
      List.dropWhile_cons_of_neg (by rw [stops]; decide)]
  rw [scanWord, word, if_neg (List.cons_ne_nil _ _), behind]

theorem leadingNumber_front (digits : ∀ byte ∈ text, isDigit byte) {stop : UInt8} (stops : isDigit stop = false)
    (rest : Bytes) : leadingNumber (text ++ stop :: rest) = leadingNumber text := by
  have notDigit : ¬isDigit stop := by
    rw [stops]
    exact Bool.false_ne_true
  rw [leadingNumber, leadingNumber, List.takeWhile_append_of_pos digits, List.takeWhile_cons_of_neg notDigit,
    List.append_nil, List.takeWhile_eq_self_iff.mpr digits]

/-- A printed number is read back, whatever is in front of it and behind it. -/
theorem scanLlu_printed (count : Nat) (number : UInt64) {stop : UInt8} (stops : isDigit stop = false) (rest : Bytes) :
    scanLlu (List.replicate count space ++ (ascii (toString number.toNat) ++ stop :: rest)) =
      some (number, stop :: rest) := by
  have small : number.toNat ≤ ulongMax := Nat.le_of_lt_succ number.toNat_lt
  have shape := whole_printed number.toNat
  have notDigit : ¬isDigit stop := by
    rw [stops]
    exact Bool.false_ne_true
  have ends : (ascii (toString number.toNat) ++ stop :: rest).takeWhile isDigit = ascii (toString number.toNat) := by
    rw [List.takeWhile_append_of_pos shape.digits, List.takeWhile_cons_of_neg notDigit, List.append_nil]
  have behind : (ascii (toString number.toNat) ++ stop :: rest).dropWhile isDigit = stop :: rest := by
    rw [List.dropWhile_append_of_pos shape.digits, List.dropWhile_cons_of_neg notDigit]
  have value := leadingNumber_front shape.digits stops rest
  rw [leadingNumber_printed] at value
  obtain ⟨first, more, text, notSpace, unsigned, unmarked⟩ := shape.begins
  rw [text, List.cons_append] at ends behind value
  have unspaced : (first :: (more ++ stop :: rest)).dropWhile isSpace = first :: (more ++ stop :: rest) :=
    dropWhile_spaces 0 notSpace _
  have read : strtoul (first :: (more ++ stop :: rest)) = number.toNat := by
    rw [strtoul, unspaced]
    simp only [unsigned, unmarked, or_self, if_false, value]
    exact if_neg (Nat.not_lt.mpr small)
  rw [text, scanLlu, List.cons_append, dropWhile_spaces count notSpace]
  simp only [unsigned, unmarked, or_self, if_false, ends, behind, read, UInt64.ofNat_toNat]
  exact if_neg (List.cons_ne_nil _ _)

/-- Numbers behind spaces, each padded to its width. -/
def columns (numbers : List (Nat × UInt64)) : Bytes :=
  numbers.flatMap fun column => space :: padLeft column.1 (ascii (toString column.2.toNat))

theorem columns_cons (column : Nat × UInt64) (numbers : List (Nat × UInt64)) :
    columns (column :: numbers) = space :: (padLeft column.1 (ascii (toString column.2.toNat)) ++ columns numbers) := rfl

/-- A number of 64 bits has 20 digits at most. -/
theorem length_columns {numbers : List (Nat × UInt64)} (narrow : ∀ column ∈ numbers, column.1 ≤ 20) :
    (columns numbers).length ≤ 21 * numbers.length := by
  induction numbers with
  | nil => exact Nat.le_refl _
  | cons column numbers ih =>
      have rest := ih fun other member => narrow other (List.mem_cons_of_mem _ member)
      have width := narrow column List.mem_cons_self
      have digits : (ascii (toString column.2.toNat)).length ≤ 20 :=
        length_printed_le (by decide) (Nat.lt_trans column.2.toNat_lt (by decide))
      rw [columns_cons, List.length_cons, List.length_append, length_padLeft, List.length_cons]
      omega

theorem mem_columns {numbers : List (Nat × UInt64)} {byte : UInt8} (member : byte ∈ columns numbers) :
    byte = space ∨ isDigit byte := by
  obtain ⟨column, _, inside⟩ := List.mem_flatMap.mp member
  rcases List.mem_cons.mp inside with first | later
  · exact .inl first
  · rcases List.mem_append.mp later with padding | digits
    · exact .inl (List.eq_of_mem_replicate padding)
    · exact .inr ((whole_printed _).digits byte digits)

theorem scanLlus_columns (numbers : List (Nat × UInt64)) {stop : UInt8} (stops : isDigit stop = false) (rest : Bytes) :
    scanLlus numbers.length (columns numbers ++ stop :: rest) = numbers.map Prod.snd := by
  induction numbers with
  | nil => rfl
  | cons column numbers ih =>
      obtain ⟨next, behind, shape, notDigit⟩ : ∃ next behind, columns numbers ++ stop :: rest = next :: behind ∧
          isDigit next = false := by
        cases numbers with
        | nil => exact ⟨stop, rest, rfl, stops⟩
        | cons column numbers => exact ⟨space, _, rfl, by decide⟩
      have first : columns (column :: numbers) ++ stop :: rest =
          List.replicate (column.1 - (ascii (toString column.2.toNat)).length + 1) space ++
            (ascii (toString column.2.toNat) ++ next :: behind) := by
        rw [← shape, columns_cons, padLeft, List.replicate_succ]
        simp only [List.append_assoc, List.cons_append]
      rw [first, List.length_cons, scanLlus, scanLlu_printed _ _ notDigit]
      dsimp only
      rw [← shape, ih]
      rfl

end GalaGopher.Text
