import GalaGopher.Text.Printed
import GalaGopher.Text.Quoted
import GalaGopher.Text.Utf8

namespace GalaGopher.Text

/-! JSON texts read from front to back.  Strings are decoded to their UTF-8
bytes, numbers are kept as written, and an object keeps its members in their
order. -/

inductive Json where
  | null
  | bool (value : Bool)
  | number (literal : Bytes)
  | string (text : Bytes)
  | array (items : List Json)
  | object (members : List (Bytes × Json))

def openBracket : UInt8 := 91
def closeBracket : UInt8 := 93

def isBlank (byte : UInt8) : Bool := byte = 32 || byte = 9 || byte = newline || byte = 13

def skipBlanks (text : Bytes) : Bytes := text.dropWhile isBlank

def hexDigit (byte : UInt8) : Option Nat :=
  if 48 ≤ byte ∧ byte ≤ 57 then some (byte.toNat - 48)
  else if 65 ≤ byte ∧ byte ≤ 70 then some (byte.toNat - 55)
  else if 97 ≤ byte ∧ byte ≤ 102 then some (byte.toNat - 87)
  else none

def hexDigits : Nat → Nat → Reader Nat
  | 0, value, text => some (value, text)
  | count + 1, value, text =>
      match text with
      | [] => none
      | byte :: rest =>
          match hexDigit byte with
          | none => none
          | some digit => hexDigits count (16 * value + digit) rest

def utf8Encode (code : Nat) : Bytes :=
  if code < 0x80 then [.ofNat code]
  else if code < 0x800 then [.ofNat (0xC0 + code / 64), .ofNat (0x80 + code % 64)]
  else if code < 0x10000 then
    [.ofNat (0xE0 + code / 4096), .ofNat (0x80 + code / 64 % 64), .ofNat (0x80 + code % 64)]
  else
    [.ofNat (0xF0 + code / 262144), .ofNat (0x80 + code / 4096 % 64), .ofNat (0x80 + code / 64 % 64),
      .ofNat (0x80 + code % 64)]

/-- Behind `\u`: four digits, or a pair of surrogates. -/
def unicodeEscape (text : Bytes) : Option (Bytes × Bytes) :=
  (hexDigits 4 0 text).bind fun high =>
    if 0xD800 ≤ high.1 ∧ high.1 < 0xDC00 then
      match high.2 with
      | 92 :: 117 :: after =>
          (hexDigits 4 0 after).bind fun low =>
            if 0xDC00 ≤ low.1 ∧ low.1 < 0xE000 then
              some (utf8Encode (0x10000 + (high.1 - 0xD800) * 1024 + (low.1 - 0xDC00)), low.2)
            else none
      | _ => none
    else if 0xDC00 ≤ high.1 ∧ high.1 < 0xE000 then none
    else some (utf8Encode high.1, high.2)

def escapedByte (byte : UInt8) : Option UInt8 :=
  if byte = quote ∨ byte = backslash ∨ byte = 47 then some byte
  else if byte = 98 then some 8
  else if byte = 102 then some 12
  else if byte = 110 then some newline
  else if byte = 114 then some 13
  else if byte = 116 then some 9
  else none

/-- Behind a backslash. -/
def escape : Reader Bytes
  | [] => none
  | byte :: rest =>
      match escapedByte byte with
      | some character => some ([character], rest)
      | none => if byte = 117 then unicodeEscape rest else none

/-- Behind the opening quote. -/
def stringBody : Nat → Reader Bytes
  | 0, _ => none
  | _ + 1, [] => none
  | fuel + 1, byte :: rest =>
      if byte = quote then some ([], rest)
      else if byte = backslash then
        (escape rest).bind fun character =>
          (stringBody fuel character.2).map fun others => (character.1 ++ others.1, others.2)
      else if byte < 32 then none
      else (stringBody fuel rest).map fun others => (byte :: others.1, others.2)

def jsonString (text : Bytes) : Option (Bytes × Bytes) := stringBody (text.length + 1) text

def digits (text : Bytes) : Option (Bytes × Bytes) :=
  if text.takeWhile isDigit = [] then none else some (text.takeWhile isDigit, text.dropWhile isDigit)

/-- Zero is the only whole number that starts with a zero. -/
def wholePart (text : Bytes) : Option (Bytes × Bytes) :=
  if text.head? = some 48 then some ([48], text.tail) else digits text

def fraction (text : Bytes) : Option (Bytes × Bytes) :=
  if text.head? = some 46 then (digits text.tail).map fun part => (46 :: part.1, part.2)
  else some ([], text)

def exponent : Reader Bytes
  | [] => some ([], [])
  | mark :: rest =>
      if mark = 101 ∨ mark = 69 then
        match rest with
        | [] => none
        | sign :: after =>
            if sign = 43 ∨ sign = 45 then (digits after).map fun part => (mark :: sign :: part.1, part.2)
            else (digits rest).map fun part => (mark :: part.1, part.2)
      else some ([], mark :: rest)

def unsignedNumber (text : Bytes) : Option (Bytes × Bytes) :=
  (wholePart text).bind fun whole =>
    (fraction whole.2).bind fun part =>
      (exponent part.2).map fun power => (whole.1 ++ part.1 ++ power.1, power.2)

def jsonNumber (text : Bytes) : Option (Bytes × Bytes) :=
  if text.head? = some 45 then (unsignedNumber text.tail).map fun number => (45 :: number.1, number.2)
  else unsignedNumber text

/-- Behind an item: a comma and another item, or the end. -/
def laterItems {α : Type} (item : Reader α) (close : UInt8) : Nat → Reader (List α)
  | 0, _ => none
  | fuel + 1, text =>
      match skipBlanks text with
      | [] => none
      | byte :: rest =>
          if byte = close then some ([], rest)
          else if byte = comma then
            (item rest).bind fun first =>
              (laterItems item close fuel first.2).map fun others => (first.1 :: others.1, others.2)
          else none

def items {α : Type} (item : Reader α) (close : UInt8) (text : Bytes) : Option (List α × Bytes) :=
  if (skipBlanks text).head? = some close then some ([], (skipBlanks text).tail)
  else (item text).bind fun first =>
    (laterItems item close text.length first.2).map fun others => (first.1 :: others.1, others.2)

def jsonMember (value : Reader Json) (text : Bytes) : Option ((Bytes × Json) × Bytes) :=
  match skipBlanks text with
  | [] => none
  | byte :: rest =>
      if byte = quote then
        (jsonString rest).bind fun name =>
          match skipBlanks name.2 with
          | [] => none
          | next :: after =>
              if next = colon then (value after).map fun read => ((name.1, read.1), read.2) else none
      else none

def keyword (text : Bytes) : Option (Json × Bytes) :=
  if (ascii "null").isPrefixOf text then some (.null, text.drop 4)
  else if (ascii "true").isPrefixOf text then some (.bool true, text.drop 4)
  else if (ascii "false").isPrefixOf text then some (.bool false, text.drop 5)
  else none

/-- A value of at most the given depth. -/
def jsonValue : Nat → Reader Json
  | 0, _ => none
  | depth + 1, text =>
      match skipBlanks text with
      | [] => none
      | byte :: rest =>
          if byte = quote then (jsonString rest).map fun read => (.string read.1, read.2)
          else if byte = openBrace then
            (items (jsonMember (jsonValue depth)) closeBrace rest).map fun read => (.object read.1, read.2)
          else if byte = openBracket then
            (items (jsonValue depth) closeBracket rest).map fun read => (.array read.1, read.2)
          else
            (keyword (byte :: rest)).or
              ((jsonNumber (byte :: rest)).map fun read => (.number read.1, read.2))

/-- The value of a whole text. -/
def json (text : Bytes) : Option Json :=
  if Utf8 text then
    (jsonValue (text.length + 1) text).bind fun read =>
      if read.2.all isBlank then some read.1 else none
  else none

/-- The text stands for itself between quotes. -/
def Unescaped (text : Bytes) : Prop :=
  ∀ byte ∈ text, byte ≠ quote ∧ byte ≠ backslash ∧ 32 ≤ byte

instance (text : Bytes) : Decidable (Unescaped text) := List.decidableBAll _ text

variable {text suffix rest value consumed : Bytes} {fuel : Nat}

theorem hexDigit_ne_quote {byte : UInt8} {digit : Nat} (read : hexDigit byte = some digit) : byte ≠ quote := by
  intro same
  subst byte
  cases read

theorem hexDigits_spec {count value result : Nat} (read : hexDigits count value text = some (result, rest)) :
    ∃ consumed, text = consumed ++ rest ∧ consumed.length = count ∧ quote ∉ consumed := by
  induction count generalizing text value with
  | zero =>
      cases read
      exact ⟨[], rfl, rfl, List.not_mem_nil⟩
  | succ count ih =>
      cases text with
      | nil => cases read
      | cons byte text =>
          unfold hexDigits at read
          cases digit : hexDigit byte with
          | none =>
              simp only [digit] at read
              cases read
          | some number =>
              simp only [digit] at read
              obtain ⟨consumed, split, length, free⟩ := ih read
              refine ⟨byte :: consumed, by rw [split, List.cons_append], by rw [List.length_cons, length], ?_⟩
              intro member
              rcases List.mem_cons.mp member with same | later
              · exact hexDigit_ne_quote digit same.symm
              · exact free later

theorem utf8Encode_length (code : Nat) : (utf8Encode code).length ≤ 4 := by
  unfold utf8Encode
  split
  · exact Nat.le_add_left 1 3
  · split
    · exact Nat.le_add_left 2 2
    · split
      · exact Nat.le_add_left 3 1
      · exact Nat.le_refl 4

theorem unicodeEscape_spec {character : Bytes} (read : unicodeEscape text = some (character, rest)) :
    ∃ consumed, text = consumed ++ rest ∧ character.length ≤ consumed.length ∧ quote ∉ consumed := by
  rw [unicodeEscape, Option.bind_eq_some_iff] at read
  obtain ⟨⟨high, after⟩, highRead, read⟩ := read
  obtain ⟨first, rfl, firstLength, firstFree⟩ := hexDigits_spec highRead
  split at read
  · split at read
    · rename_i low lowText
      rw [Option.bind_eq_some_iff] at read
      obtain ⟨⟨low, last⟩, lowRead, read⟩ := read
      obtain ⟨second, rfl, secondLength, secondFree⟩ := hexDigits_spec lowRead
      split at read
      · rw [Option.some.injEq, Prod.mk.injEq] at read
        obtain ⟨rfl, rfl⟩ := read
        simp only at lowText
        refine ⟨first ++ 92 :: 117 :: second, by rw [lowText]; simp, ?_, ?_⟩
        · rw [List.length_append, firstLength]
          exact Nat.le_trans (utf8Encode_length _) (Nat.le_add_right _ _)
        · simp only [List.mem_append, List.mem_cons, not_or]
          exact ⟨firstFree, by decide, by decide, secondFree⟩
      · cases read
    · cases read
  · split at read
    · cases read
    · cases read
      refine ⟨first, rfl, ?_, firstFree⟩
      rw [firstLength]
      exact utf8Encode_length high

theorem escape_spec {character : Bytes} (read : escape text = some (character, rest)) :
    ∃ consumed, text = consumed ++ rest ∧ character.length ≤ consumed.length ∧
      consumed.count quote ≤ character.count quote := by
  cases text with
  | nil => cases read
  | cons byte text =>
      unfold escape at read
      cases single : escapedByte byte with
      | some other =>
          simp only [single] at read
          cases read
          refine ⟨[byte], rfl, Nat.le_refl _, ?_⟩
          by_cases same : byte = quote
          · rw [same, escapedByte, if_pos (.inl rfl)] at single
            cases single
            exact Nat.le_of_eq (by rw [same])
          · rw [List.count_eq_zero_of_not_mem (by simpa using Ne.symm same)]
            exact Nat.zero_le _
      | none =>
          simp only [single] at read
          split at read
          · rename_i marked
            obtain ⟨consumed, rfl, length, free⟩ := unicodeEscape_spec read
            refine ⟨byte :: consumed, rfl, ?_, ?_⟩
            · rw [List.length_cons]
              exact Nat.le_succ_of_le length
            · rw [List.count_eq_zero_of_not_mem]
              · exact Nat.zero_le _
              · rw [List.mem_cons, not_or, marked]
                exact ⟨by decide, free⟩
          · cases read

/-- What a string was read from.  Decoding never lengthens it, loses none of
the quotes inside, and keeps the length only of what stands for itself. -/
theorem stringBody_spec (read : stringBody fuel text = some (value, rest)) :
    ∃ consumed, text = consumed ++ quote :: rest ∧ value.length ≤ consumed.length ∧
      consumed.count quote ≤ value.count quote ∧
      (value.length = consumed.length → value = consumed ∧ Unescaped value) := by
  induction fuel generalizing text value with
  | zero => cases read
  | succ fuel ih =>
      cases text with
      | nil => cases read
      | cons byte text =>
          unfold stringBody at read
          split at read
          · rename_i closed
            cases read
            exact ⟨[], by rw [closed, List.nil_append], Nat.le_refl _, Nat.le_refl _,
              fun _ => ⟨rfl, by simp [Unescaped]⟩⟩
          · rename_i different
            split at read
            · rw [Option.bind_eq_some_iff] at read
              obtain ⟨⟨character, after⟩, escaped, read⟩ := read
              rw [Option.map_eq_some_iff] at read
              obtain ⟨⟨others, last⟩, later, read⟩ := read
              simp only [Prod.mk.injEq] at read
              obtain ⟨rfl, rfl⟩ := read
              obtain ⟨first, rfl, firstLength, firstCount⟩ := escape_spec escaped
              obtain ⟨second, rfl, secondLength, secondCount, -⟩ := ih later
              refine ⟨byte :: (first ++ second), by simp, ?_, ?_, ?_⟩
              · simp only [List.length_append, List.length_cons]
                omega
              · rw [List.count_cons_of_ne different, List.count_append, List.count_append]
                omega
              · simp only [List.length_append, List.length_cons]
                omega
            · rename_i plain
              split at read
              · cases read
              · rename_i printable
                rw [Option.map_eq_some_iff] at read
                obtain ⟨⟨others, last⟩, later, read⟩ := read
                simp only [Prod.mk.injEq] at read
                obtain ⟨rfl, rfl⟩ := read
                obtain ⟨consumed, rfl, length, count, exact⟩ := ih later
                refine ⟨byte :: consumed, rfl, ?_, ?_, ?_⟩
                · rw [List.length_cons, List.length_cons]
                  omega
                · rw [List.count_cons_of_ne different, List.count_cons_of_ne different]
                  exact count
                · rw [List.length_cons, List.length_cons]
                  intro same
                  obtain ⟨rfl, unescaped⟩ := exact (by omega)
                  refine ⟨rfl, ?_⟩
                  intro other member
                  rcases List.mem_cons.mp member with here | there
                  · subst other
                    exact ⟨different, plain, UInt8.not_lt.mp printable⟩
                  · exact unescaped other there

theorem stringBody_unescaped (unescaped : Unescaped value) (enough : value.length < fuel) :
    stringBody fuel (value ++ quote :: suffix) = some (value, suffix) := by
  induction value generalizing fuel with
  | nil =>
      cases fuel with
      | zero => exact absurd enough (Nat.not_lt_zero _)
      | succ fuel => rfl
  | cons byte value ih =>
      cases fuel with
      | zero => exact absurd enough (Nat.not_lt_zero _)
      | succ fuel =>
          obtain ⟨closed, escaped, printable⟩ := unescaped byte (by simp)
          have later : Unescaped value := fun other member => unescaped other (by simp [member])
          rw [List.length_cons] at enough
          rw [List.cons_append, stringBody, if_neg closed, if_neg escaped, if_neg (UInt8.not_lt.mpr printable),
            ih later (by omega)]
          rfl

/-- A text pasted between quotes is read as itself only if nothing in it needs
escaping. -/
theorem jsonString_pasted :
    jsonString (value ++ quote :: suffix) = some (value, rest) ↔ Unescaped value ∧ rest = suffix := by
  constructor
  · intro read
    obtain ⟨consumed, split, length, count, exact⟩ := stringBody_spec read
    obtain ⟨rfl, rfl⟩ := pasted_unique split length count
    exact ⟨(exact rfl).2, rfl⟩
  · intro given
    obtain ⟨unescaped, rfl⟩ := given
    refine stringBody_unescaped unescaped ?_
    rw [List.length_append]
    omega

theorem takeWhile_digits (all : ∀ byte ∈ text, isDigit byte) :
    (text ++ comma :: suffix).takeWhile isDigit = text ∧
      (text ++ comma :: suffix).dropWhile isDigit = comma :: suffix := by
  rw [List.takeWhile_append_of_pos all, List.dropWhile_append_of_pos all]
  exact ⟨List.append_nil text, rfl⟩

theorem unsignedNumber_whole (whole : Whole text) :
    unsignedNumber (text ++ comma :: suffix) = some (text, comma :: suffix) := by
  have first : wholePart (text ++ comma :: suffix) = some (text, comma :: suffix) := by
    rw [wholePart, List.head?_append_of_ne_nil _ whole.nonempty]
    split
    · rename_i zero
      rw [whole.leading zero]
      rfl
    · obtain ⟨taken, left⟩ := @takeWhile_digits text suffix whole.digits
      rw [Text.digits, taken, left, if_neg whole.nonempty]
  have second : fraction (comma :: suffix) = some ([], comma :: suffix) := rfl
  have third : exponent (comma :: suffix) = some ([], comma :: suffix) := rfl
  rw [unsignedNumber, first, Option.bind_some, second, Option.bind_some, third, Option.map_some,
    List.append_nil, List.append_nil]

theorem jsonNumber_printed (number : Int) :
    jsonNumber (ascii (toString number) ++ comma :: suffix) =
      some (ascii (toString number), comma :: suffix) := by
  obtain ⟨whole, shape, printed⟩ := printed_whole number
  rcases printed with plain | negative
  · rw [plain, jsonNumber, List.head?_append_of_ne_nil _ shape.nonempty, if_neg, unsignedNumber_whole shape]
    intro minus
    obtain ⟨rest, split⟩ := List.head?_eq_some_iff.mp minus
    have digit := shape.digits 45 (by rw [split]; exact List.mem_cons_self)
    cases digit
  · rw [negative, List.cons_append, jsonNumber, List.head?_cons, if_pos rfl, List.tail_cons,
      unsignedNumber_whole shape]
    rfl

variable {depth : Nat} {name : Bytes} {read : Json}

theorem jsonValue_blank (reader : Nat) : jsonValue reader (32 :: text) = jsonValue reader text := by
  cases reader with
  | zero => rfl
  | succ depth => rfl

theorem jsonMember_blank (reader : Reader Json) : jsonMember reader (32 :: text) = jsonMember reader text := rfl

theorem jsonValue_string :
    jsonValue (depth + 1) (quote :: (value ++ quote :: suffix)) = some (.string value, rest) ↔
      Unescaped value ∧ rest = suffix := by
  have unfolded : jsonValue (depth + 1) (quote :: (value ++ quote :: suffix)) =
      (jsonString (value ++ quote :: suffix)).map fun read => (Json.string read.1, read.2) := rfl
  rw [unfolded, Option.map_eq_some_iff, ← jsonString_pasted]
  constructor
  · intro given
    obtain ⟨⟨found, after⟩, string, same⟩ := given
    cases same
    exact string
  · intro string
    exact ⟨(value, rest), string, rfl⟩

theorem jsonValue_object (rest : Bytes) : jsonValue (depth + 1) (openBrace :: rest) =
    (items (jsonMember (jsonValue depth)) closeBrace rest).map fun read => (.object read.1, read.2) := rfl

theorem jsonValue_printed (number : Int) :
    jsonValue (depth + 1) (ascii (toString number) ++ comma :: suffix) =
      some (.number (ascii (toString number)), comma :: suffix) := by
  obtain ⟨whole, shape, printed⟩ := printed_whole number
  have starts : ∃ byte later, ascii (toString number) = byte :: later ∧ (byte = 45 ∨ isDigit byte) := by
    rcases printed with plain | negative
    · obtain ⟨byte, later, split⟩ := List.exists_cons_of_ne_nil shape.nonempty
      exact ⟨byte, later, plain.trans split, .inr (shape.digits byte (by rw [split]; exact List.mem_cons_self))⟩
    · exact ⟨45, whole, negative, .inl rfl⟩
  obtain ⟨byte, later, split, first⟩ := starts
  have other (marker : UInt8) (neither : ¬ (marker = 45 ∨ isDigit marker)) : ¬ marker = byte :=
    fun same => neither (same ▸ first)
  have blanks : skipBlanks (byte :: (later ++ comma :: suffix)) = byte :: (later ++ comma :: suffix) := by
    have visible : isBlank byte = false := by
      simp only [isBlank, Bool.or_eq_false_iff, decide_eq_false_iff_not]
      exact ⟨⟨⟨Ne.symm (other 32 (by decide)), Ne.symm (other 9 (by decide))⟩,
        Ne.symm (other newline (by decide))⟩, Ne.symm (other 13 (by decide))⟩
    rw [skipBlanks, List.dropWhile_cons, visible]
    rfl
  have words : keyword (byte :: (later ++ comma :: suffix)) = none := by
    have misses (letter : UInt8) (letters : Bytes) (neither : ¬ (letter = 45 ∨ isDigit letter)) :
        (letter :: letters).isPrefixOf (byte :: (later ++ comma :: suffix)) = false := by
      rw [List.isPrefixOf_cons_cons, beq_eq_false_iff_ne.mpr (other letter neither), Bool.false_and]
    have null : ascii "null" = 110 :: ascii "ull" := rfl
    have yes : ascii "true" = 116 :: ascii "rue" := rfl
    have no : ascii "false" = 102 :: ascii "alse" := rfl
    rw [keyword, null, yes, no, misses 110 _ (by decide), misses 116 _ (by decide), misses 102 _ (by decide)]
    rfl
  have number := @jsonNumber_printed suffix number
  rw [split, List.cons_append] at number ⊢
  rw [jsonValue, blanks]
  simp only
  rw [if_neg (Ne.symm (other quote (by decide))), if_neg (Ne.symm (other openBrace (by decide))),
    if_neg (Ne.symm (other openBracket (by decide))), words, number]
  rfl

theorem jsonMember_pasted (reader : Reader Json) :
    jsonMember reader (quote :: (name ++ quote :: colon :: suffix)) = some ((name, read), rest) ↔
      Unescaped name ∧ reader suffix = some (read, rest) := by
  have unfolded : jsonMember reader (quote :: (name ++ quote :: colon :: suffix)) =
      (jsonString (name ++ quote :: colon :: suffix)).bind fun name =>
        match skipBlanks name.2 with
        | [] => none
        | next :: after =>
            if next = colon then (reader after).map fun read => ((name.1, read.1), read.2) else none := rfl
  rw [unfolded, Option.bind_eq_some_iff]
  constructor
  · intro given
    obtain ⟨⟨found, after⟩, string, member⟩ := given
    simp only at member
    split at member
    · cases member
    · rename_i next later split
      split at member
      · rename_i separated
        rw [Option.map_eq_some_iff] at member
        obtain ⟨⟨other, last⟩, valued, same⟩ := member
        cases same
        obtain ⟨unescaped, rfl⟩ := jsonString_pasted.mp string
        cases split
        exact ⟨unescaped, valued⟩
      · cases member
  · intro given
    obtain ⟨unescaped, valued⟩ := given
    refine ⟨(name, colon :: suffix), jsonString_pasted.mpr ⟨unescaped, rfl⟩, ?_⟩
    show (reader suffix).map _ = _
    rw [valued]
    rfl

theorem quote_opens (text : Bytes) : (skipBlanks (quote :: text)).head? ≠ some closeBrace := by
  show some quote ≠ some closeBrace
  decide

theorem blank_quote_opens (text : Bytes) : (skipBlanks (32 :: quote :: text)).head? ≠ some closeBrace :=
  quote_opens text

theorem items_cons_iff {α : Type} {item : Reader α} {first : α} {others : List α}
    (more : (skipBlanks text).head? ≠ some closeBrace) :
    items item closeBrace text = some (first :: others, rest) ↔
      ∃ after, item text = some (first, after) ∧
        laterItems item closeBrace text.length after = some (others, rest) := by
  rw [items, if_neg more]
  exact read_cons_iff

theorem laterItems_cons_iff {α : Type} {item : Reader α} {first : α} {others : List α} :
    laterItems item closeBrace (fuel + 1) (comma :: text) = some (first :: others, rest) ↔
      ∃ after, item text = some (first, after) ∧ laterItems item closeBrace fuel after = some (others, rest) :=
  read_cons_iff

/-- A member pasted behind the one before it. -/
def pastedMember (pair : Bytes × Bytes) : Bytes :=
  comma :: 32 :: quote :: (pair.1 ++ quote :: colon :: 32 :: quote :: (pair.2 ++ [quote]))

def stringMember (pair : Bytes × Bytes) : Bytes × Json := (pair.1, .string pair.2)

/-- Members pasted one behind the other are read back exactly when none of
their texts needs escaping. -/
theorem laterItems_pasted {pairs : List (Bytes × Bytes)} (enough : pairs.length < fuel) :
    laterItems (jsonMember (jsonValue (depth + 1))) closeBrace fuel
        (pairs.flatMap pastedMember ++ closeBrace :: suffix) = some (pairs.map stringMember, rest) ↔
      (∀ pair ∈ pairs, Unescaped pair.1 ∧ Unescaped pair.2) ∧ rest = suffix := by
  induction pairs generalizing fuel with
  | nil =>
      cases fuel with
      | zero => exact absurd enough (Nat.not_lt_zero _)
      | succ fuel =>
          have read : laterItems (jsonMember (jsonValue (depth + 1))) closeBrace (fuel + 1)
              (closeBrace :: suffix) = some ([], suffix) := rfl
          rw [List.flatMap_nil, List.nil_append, read, List.map_nil, Option.some.injEq, Prod.mk.injEq]
          simp [eq_comm]
  | cons pair pairs ih =>
      cases fuel with
      | zero => exact absurd enough (Nat.not_lt_zero _)
      | succ fuel =>
          rw [List.length_cons] at enough
          have split : (pair :: pairs).flatMap pastedMember ++ closeBrace :: suffix =
              comma :: 32 :: quote :: (pair.1 ++ quote :: colon :: 32 :: quote :: (pair.2 ++
                quote :: (pairs.flatMap pastedMember ++ closeBrace :: suffix))) := by
            simp only [List.flatMap_cons, pastedMember, List.cons_append, List.append_assoc, List.nil_append]
          rw [split, List.map_cons, laterItems_cons_iff, List.forall_mem_cons]
          constructor
          · intro given
            obtain ⟨after, member, later⟩ := given
            rw [jsonMember_blank] at member
            obtain ⟨named, valued⟩ := (jsonMember_pasted _).mp member
            rw [jsonValue_blank] at valued
            obtain ⟨clean, rfl⟩ := jsonValue_string.mp valued
            obtain ⟨others, same⟩ := (ih (by omega)).mp later
            exact ⟨⟨⟨named, clean⟩, others⟩, same⟩
          · intro given
            obtain ⟨⟨⟨named, clean⟩, others⟩, same⟩ := given
            refine ⟨pairs.flatMap pastedMember ++ closeBrace :: suffix, ?_, (ih (by omega)).mpr ⟨others, same⟩⟩
            rw [jsonMember_blank]
            refine (jsonMember_pasted _).mpr ⟨named, ?_⟩
            rw [jsonValue_blank]
            exact jsonValue_string.mpr ⟨clean, rfl⟩

/-- A comma behind the last member asks for another one. -/
theorem items_trailing_comma : items (jsonMember (jsonValue (depth + 1))) closeBrace
    (32 :: quote :: (name ++ quote :: colon :: 32 :: quote :: (value ++ quote :: comma :: closeBrace :: suffix))) ≠
      some ([(name, .string value)], rest) := by
  intro read
  obtain ⟨after, member, later⟩ := (items_cons_iff (blank_quote_opens _)).mp read
  rw [jsonMember_blank] at member
  obtain ⟨-, valued⟩ := (jsonMember_pasted _).mp member
  rw [jsonValue_blank] at valued
  obtain ⟨-, rfl⟩ := jsonValue_string.mp valued
  have refused (fuel : Nat) :
      laterItems (jsonMember (jsonValue (depth + 1))) closeBrace fuel (comma :: closeBrace :: suffix) = none := by
    cases fuel with
    | zero => rfl
    | succ fuel => rfl
  rw [refused] at later
  cases later

/-- The text means itself when it is pasted between quotes. -/
structure Pastes (text : Bytes) : Prop where
  unescaped : Unescaped text
  utf8 : Utf8 text

theorem pastes_iff : Pastes text ↔ Unescaped text ∧ Utf8 text := by
  constructor
  · intro pastes
    exact ⟨pastes.unescaped, pastes.utf8⟩
  · intro given
    exact ⟨given.1, given.2⟩

instance (text : Bytes) : Decidable (Pastes text) := decidable_of_iff _ pastes_iff.symm

theorem utf8_pastedMembers (pairs : List (Bytes × Bytes)) :
    Utf8 (pairs.flatMap pastedMember ++ [closeBrace]) ↔ ∀ pair ∈ pairs, Utf8 pair.1 ∧ Utf8 pair.2 := by
  induction pairs with
  | nil => exact iff_of_true rfl (by simp)
  | cons pair pairs ih =>
      have split : (pair :: pairs).flatMap pastedMember ++ [closeBrace] =
          [comma, 32, quote] ++ (pair.1 ++ quote :: ([colon, 32] ++ quote :: (pair.2 ++
            quote :: (pairs.flatMap pastedMember ++ [closeBrace])))) := by
        simp only [List.flatMap_cons, pastedMember, List.cons_append, List.append_assoc, List.nil_append]
      rw [split, utf8_ascii_append_iff (by decide), utf8_append_cons_iff (by decide),
        utf8_ascii_append_iff (by decide), utf8_cons_iff (by decide), utf8_append_cons_iff (by decide), ih,
        List.forall_mem_cons, and_assoc]

/-- An object of a number and pasted texts. -/
def pastedObject (name : Bytes) (number : Int) (pairs : List (Bytes × Bytes)) : Bytes :=
  openBrace :: quote :: (name ++ quote :: colon :: 32 :: (ascii (toString number) ++
    (pairs.flatMap pastedMember ++ [closeBrace])))

theorem utf8_pastedObject (name : Bytes) (number : Int) (pairs : List (Bytes × Bytes)) :
    Utf8 (pastedObject name number pairs) ↔ Utf8 name ∧ ∀ pair ∈ pairs, Utf8 pair.1 ∧ Utf8 pair.2 := by
  rw [pastedObject, utf8_cons_iff (by decide), utf8_cons_iff (by decide), utf8_append_cons_iff (by decide),
    utf8_cons_iff (by decide), utf8_cons_iff (by decide), utf8_ascii_append_iff (printed_small number),
    utf8_pastedMembers]

theorem flatMap_pastedMember_length (pairs : List (Bytes × Bytes)) :
    pairs.length ≤ (pairs.flatMap pastedMember).length := by
  induction pairs with
  | nil => exact Nat.le_refl _
  | cons pair pairs ih =>
      rw [List.flatMap_cons, List.length_append, List.length_cons, pastedMember, List.length_cons]
      omega

theorem jsonValue_pastedObject {first : Bytes × Bytes} {pairs : List (Bytes × Bytes)} (number : Int) :
    jsonValue (depth + 2) (pastedObject name number (first :: pairs)) =
        some (.object ((name, .number (ascii (toString number))) :: (first :: pairs).map stringMember), rest) ↔
      (Unescaped name ∧ ∀ pair ∈ first :: pairs, Unescaped pair.1 ∧ Unescaped pair.2) ∧ rest = [] := by
  have behind : ∃ later, (first :: pairs).flatMap pastedMember ++ [closeBrace] = comma :: later := ⟨_, rfl⟩
  obtain ⟨later, split⟩ := behind
  have literal : jsonValue (depth + 1) (32 :: (ascii (toString number) ++
      ((first :: pairs).flatMap pastedMember ++ [closeBrace]))) =
        some (.number (ascii (toString number)), (first :: pairs).flatMap pastedMember ++ [closeBrace]) := by
    rw [split, jsonValue_blank, jsonValue_printed]
  have enough : (first :: pairs).length < (quote :: (name ++ quote :: colon :: 32 :: (ascii (toString number) ++
      ((first :: pairs).flatMap pastedMember ++ [closeBrace])))).length := by
    have counted := flatMap_pastedMember_length (first :: pairs)
    simp only [List.length_append, List.length_cons] at counted ⊢
    omega
  rw [pastedObject, jsonValue_object, Option.map_eq_some_iff]
  constructor
  · intro given
    obtain ⟨⟨members, last⟩, read, same⟩ := given
    simp only [Prod.mk.injEq, Json.object.injEq] at same
    obtain ⟨rfl, rfl⟩ := same
    obtain ⟨after, member, later⟩ := (items_cons_iff (quote_opens _)).mp read
    obtain ⟨named, valued⟩ := (jsonMember_pasted _).mp member
    rw [literal, Option.some.injEq, Prod.mk.injEq] at valued
    obtain ⟨-, rfl⟩ := valued
    obtain ⟨clean, empty⟩ := (laterItems_pasted enough).mp later
    exact ⟨⟨named, clean⟩, empty⟩
  · intro given
    obtain ⟨⟨named, clean⟩, empty⟩ := given
    refine ⟨(_, rest), (items_cons_iff (quote_opens _)).mpr ?_, rfl⟩
    exact ⟨_, (jsonMember_pasted _).mpr ⟨named, literal⟩, (laterItems_pasted enough).mpr ⟨clean, empty⟩⟩

/-- The text is that object exactly when each name and text means itself. -/
theorem json_pastedObject {pairs : List (Bytes × Bytes)} (number : Int) (several : pairs ≠ []) :
    json (pastedObject name number pairs) =
        some (.object ((name, .number (ascii (toString number))) :: pairs.map stringMember)) ↔
      Pastes name ∧ ∀ pair ∈ pairs, Pastes pair.1 ∧ Pastes pair.2 := by
  obtain ⟨first, others, rfl⟩ := List.exists_cons_of_ne_nil several
  have deep : ∃ depth, (pastedObject name number (first :: others)).length + 1 = depth + 2 := ⟨_, rfl⟩
  obtain ⟨depth, deep⟩ := deep
  rw [json, deep]
  constructor
  · intro given
    split at given
    · rename_i characters
      rw [Option.bind_eq_some_iff] at given
      obtain ⟨⟨value, rest⟩, read, ended⟩ := given
      split at ended
      · cases ended
        obtain ⟨⟨named, clean⟩, -⟩ := (jsonValue_pastedObject number).mp read
        obtain ⟨nameCharacters, characters⟩ := (utf8_pastedObject ..).mp characters
        refine ⟨⟨named, nameCharacters⟩, ?_⟩
        intro pair member
        obtain ⟨cleanName, cleanValue⟩ := clean pair member
        obtain ⟨utf8Name, utf8Value⟩ := characters pair member
        exact ⟨⟨cleanName, utf8Name⟩, cleanValue, utf8Value⟩
      · cases ended
    · cases given
  · intro given
    obtain ⟨named, all⟩ := given
    have characters : Utf8 (pastedObject name number (first :: others)) :=
      (utf8_pastedObject ..).mpr ⟨named.utf8, fun pair member => ⟨(all pair member).1.utf8, (all pair member).2.utf8⟩⟩
    have read := (@jsonValue_pastedObject [] depth name first others number).mpr
      ⟨⟨named.unescaped, fun pair member => ⟨(all pair member).1.unescaped, (all pair member).2.unescaped⟩⟩, rfl⟩
    rw [if_pos characters, read]
    rfl

end GalaGopher.Text
