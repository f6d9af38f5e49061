import GalaGopher.Text.Printed

namespace GalaGopher.Text

def space : UInt8 := 32

def dash : UInt8 := 45

def isSpace (byte : UInt8) : Bool := byte = space || (9 ≤ byte && byte ≤ 13)

/-- The number that the digits in front stand for. -/
def leadingNumber (text : Bytes) : Nat :=
  (text.takeWhile isDigit).foldl (fun number digit => number * 10 + (digit.toNat - 48)) 0

def longMax : Int := 9223372036854775807

def longMin : Int := -9223372036854775808

/-- `strtol` to the base of ten, with a `long` of 64 bits. -/
def strtol (text : Bytes) : Int :=
  match text.dropWhile isSpace with
  | [] => 0
  | sign :: rest =>
      if sign = dash then
        let value := -(leadingNumber rest : Int)
        if value < longMin then longMin else value
      else
        let value : Int := leadingNumber (if sign = 43 then rest else sign :: rest)
        if longMax < value then longMax else value

def ulongMax : Nat := 18446744073709551615

/-- `strtoul` to the base of ten; a sign turns the number around. -/
def strtoul (text : Bytes) : Nat :=
  match text.dropWhile isSpace with
  | [] => 0
  | sign :: rest =>
      let value := leadingNumber (if sign = dash ∨ sign = 43 then rest else sign :: rest)
      if ulongMax < value then ulongMax
      else if sign = dash then (ulongMax + 1 - value) % (ulongMax + 1)
      else value

/-- What is left of the `long` in an `int`. -/
def atoi (text : Bytes) : Int32 := Int32.ofInt (strtol text)

theorem leadingNumber_printed (number : Nat) : leadingNumber (ascii (toString number)) = number := by
  have digit : ∀ character ∈ Nat.toDigits 10 number, character.isDigit :=
    fun character member => Nat.isDigit_of_mem_toDigits (by decide) (by decide) member
  have values : ∀ characters : List Char, (∀ character ∈ characters, character.isDigit) → ∀ sofar : Nat,
      ((characters.map digitByte).takeWhile isDigit).foldl (fun number digit => number * 10 + (digit.toNat - 48)) sofar =
        Nat.ofDigitChars 10 characters sofar := by
    intro characters
    induction characters with
    | nil => intro _ sofar; rw [Nat.ofDigitChars_nil]; rfl
    | cons character rest ih =>
        intro digits sofar
        have first := digits character List.mem_cons_self
        rw [List.map_cons, List.takeWhile_cons_of_pos (isDigit_digitByte first), List.foldl_cons, Nat.ofDigitChars_cons,
          ih (fun other member => digits other (List.mem_cons_of_mem _ member)), (digitByte_toNat first).1,
          Nat.mul_comm sofar 10]
        rfl
  rw [printed_nat, leadingNumber, values _ digit, Nat.ofDigitChars_ten_toDigits]

theorem digit_ne {byte other : UInt8} (digit : isDigit byte) (different : isDigit other = false) : byte ≠ other := by
  rintro rfl
  exact absurd digit (by rw [different]; exact Bool.false_ne_true)

theorem digit_unspaced {byte : UInt8} (digit : isDigit byte) : isSpace byte = false := by
  rw [isDigit, Bool.and_eq_true, decide_eq_true_eq, decide_eq_true_eq, UInt8.le_iff_toNat_le] at digit
  have lower : 48 ≤ byte.toNat := digit.1
  rw [isSpace, Bool.or_eq_false_iff, Bool.and_eq_false_iff, decide_eq_false_iff_not, decide_eq_false_iff_not,
    decide_eq_false_iff_not]
  refine ⟨fun blank => ?_, .inr fun low => ?_⟩
  · rw [blank] at lower
    exact absurd lower (by decide)
  · have upper : byte.toNat ≤ 13 := UInt8.le_iff_toNat_le.mp low
    omega

/-- A number begins with no space and no sign. -/
theorem Whole.begins {text : Bytes} (shape : Whole text) :
    ∃ first rest, text = first :: rest ∧ isSpace first = false ∧ first ≠ dash ∧ first ≠ 43 := by
  obtain ⟨first, rest, rfl⟩ := List.exists_cons_of_ne_nil shape.nonempty
  have digit := shape.digits first List.mem_cons_self
  exact ⟨first, rest, rfl, digit_unspaced digit, digit_ne digit (by decide), digit_ne digit (by decide)⟩

theorem strtol_printed {number : Nat} (small : (number : Int) ≤ longMax) : strtol (ascii (toString number)) = number := by
  have whole := leadingNumber_printed number
  obtain ⟨first, rest, text, unspaced, unsigned, unmarked⟩ := (whole_printed number).begins
  have begins : (first :: rest).dropWhile isSpace = first :: rest :=
    List.dropWhile_cons_of_neg (by rw [unspaced]; exact Bool.false_ne_true)
  rw [text] at whole ⊢
  rw [strtol, begins]
  simp only [if_neg unsigned, if_neg unmarked, whole]
  exact if_neg (Int.not_lt.mpr small)

theorem atoi_printed {number : Nat} (small : (number : Int) ≤ longMax) :
    atoi (ascii (toString number)) = Int32.ofNat number := by
  rw [atoi, strtol_printed small, Int32.ofInt_eq_ofNat]

theorem strtoul_printed {number : Nat} (small : number ≤ ulongMax) : strtoul (ascii (toString number)) = number := by
  have whole := leadingNumber_printed number
  obtain ⟨first, rest, text, unspaced, unsigned, unmarked⟩ := (whole_printed number).begins
  have begins : (first :: rest).dropWhile isSpace = first :: rest :=
    List.dropWhile_cons_of_neg (by rw [unspaced]; exact Bool.false_ne_true)
  rw [text] at whole ⊢
  rw [strtoul, begins]
  simp only [unsigned, unmarked, or_self, if_false, whole]
  exact if_neg (Nat.not_lt.mpr small)

/-- All that `strtok` returns with one delimiter. -/
def strtok (text : Bytes) (delimiter : UInt8) : List Bytes :=
  (text.splitOn delimiter).filter fun token => token ≠ []

theorem strtok_append (front rest : Bytes) (delimiter : UInt8) :
    strtok (front ++ delimiter :: rest) delimiter = strtok front delimiter ++ strtok rest delimiter := by
  rw [strtok, List.splitOn_append_cons_self, List.filter_append, strtok, strtok]

theorem strtok_whole {text : Bytes} {delimiter : UInt8} (free : delimiter ∉ text) (filled : text ≠ []) :
    strtok text delimiter = [text] := by
  rw [strtok, List.splitOn_eq_singleton free, List.filter_cons_of_pos (by simpa using filled), List.filter_nil]

/-- What one element of the argument vector is. -/
inductive Element where
  | operand
  | finish
  | unknown
  | attached (option : UInt8) (argument : Bytes)
  | detached (option : UInt8)

def classify (options : Bytes) : Bytes → Element
  | first :: option :: rest =>
      if first ≠ dash then .operand
      else if option = dash ∧ rest = [] then .finish
      else if option ∉ options then .unknown
      else if rest = [] then .detached option
      else .attached option rest
  | _ => .operand

/-- What is returned with `optarg`, up to the end or to the first `?`. -/
def getopt (options : Bytes) : List Bytes → List (UInt8 × Option Bytes)
  | [] => []
  | element :: rest =>
      match classify options element with
      | .operand => getopt options rest
      | .finish => []
      | .unknown => [(63, none)]
      | .attached option argument => (option, some argument) :: getopt options rest
      | .detached option =>
          match rest with
          | [] => [(63, none)]
          | argument :: rest => (option, some argument) :: getopt options rest

variable {options : Bytes} {option : UInt8} {argument : Bytes} {rest : List Bytes}

theorem getopt_known (known : option ∈ options) (plain : option ≠ dash) :
    getopt options ([dash, option] :: argument :: rest) = (option, some argument) :: getopt options rest := by
  have detached : classify options [dash, option] = .detached option := by
    simp [classify, plain, known]
  rw [getopt, detached]

theorem getopt_unknown (unknown : option ∉ options) (plain : option ≠ dash) :
    getopt options ([dash, option] :: rest) = [(63, none)] := by
  have wrong : classify options [dash, option] = .unknown := by
    simp [classify, plain, unknown]
  rw [getopt, wrong]

end GalaGopher.Text
