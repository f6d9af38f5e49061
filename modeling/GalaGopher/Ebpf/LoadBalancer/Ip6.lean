import GalaGopher.Ebpf.LoadBalancer
import GalaGopher.Text.Options
import Mathlib.Tactic.IntervalCases

namespace GalaGopher.Ebpf.LoadBalancer

open Text Lvs

section Buffers

/-- `sizeof(str)` -/
def strSize : Nat := 48

/-- The place of the byte that is written for a group that begins with a zero.
A byte is read as long as it is in the text or its terminator. -/
def skipPlace (str : Bytes) (j : Nat) : Option Nat :=
  match str[j + 1]? with
  | none => none
  | some second =>
      if second ≠ zeroDigit then some (j + 1)
      else
        match str[j + 2]? with
        | none => none
        | some third => some (if third ≠ zeroDigit then j + 2 else j + 3)

/-- Whether a zero at `j` begins a group. The byte before is read only behind
the start. -/
def beginsGroup (j : Nat) (ipStr : Bytes) : Option Bool :=
  if j = 0 then some true else ipStr.getLast?.map (· = colon)

/-- The loop of `ip6_str`, with what is written so far for `i`; `none` is an
access outside of a buffer. -/
def ip6Loop (str : Bytes) (ipStrSize : Nat) : Nat → Nat → Bytes → Option Bytes
  | 0, _, _ => none
  | turns + 1, j, ipStr =>
      match str[j]? with
      | none => none
      | some byte =>
          if byte = 0 then if ipStr.length < ipStrSize then some ipStr else none
          else
            match if byte = zeroDigit then beginsGroup j ipStr else some false with
            | none => none
            | some first =>
                match if first then skipPlace str j else some j with
                | none => none
                | some j =>
                    match str[j]? with
                    | none => none
                    | some written =>
                        if ipStr.length < ipStrSize then ip6Loop str ipStrSize turns (j + 1) (ipStr ++ [written]) else none

def ip6StrBuffers (ip : Ip) (ipStrSize : Nat) : Option Bytes :=
  let str := (ip6Format ip).take (ipStrSize - 1) ++ [0]
  if str.length ≤ strSize then ip6Loop str ipStrSize str.length 0 [] else none

end Buffers

variable {str tail ipStr : Bytes} {ipStrSize j : Nat} {last : Option UInt8} {byte : UInt8}

/-- Four bytes at least follow a colon, and the start. -/
def Roomy (last : Option UInt8) (tail : Bytes) : Prop :=
  ∀ behind, colon :: behind <:+ last.getD colon :: tail → 4 ≤ behind.length

theorem Roomy.next (roomy : Roomy last tail) {rest : Bytes} {written : UInt8} (later : written :: rest <:+ tail) :
    Roomy (some written) rest :=
  fun behind inside => roomy behind (inside.trans (later.trans (List.suffix_cons _ _)))

theorem Roomy.length (roomy : Roomy last tail) (begins : last = none ∨ last = some colon) : 4 ≤ tail.length := by
  refine roomy tail ?_
  rcases begins with rfl | rfl <;> exact List.suffix_refl _

theorem read_of_drop (here : str.drop j = byte :: tail) : str[j]? = some byte := by
  rw [← Nat.add_zero j, ← List.getElem?_drop, here]
  rfl

/-- What stands `count` places behind, and what is left behind that. -/
theorem read_behind (here : str.drop j = tail ++ [0]) {count : Nat} {later : UInt8} {rest : Bytes}
    (shape : tail.drop count = later :: rest) :
    str[j + count]? = some later ∧ str.drop (j + count + 1) = rest ++ [0] := by
  have within : count ≤ tail.length := by
    by_contra outside
    rw [List.drop_of_length_le (by omega)] at shape
    cases shape
  have place : str.drop (j + count) = later :: (rest ++ [0]) := by
    rw [← List.drop_drop, here, List.drop_append_of_le_length within, shape]
    rfl
  refine ⟨read_of_drop place, ?_⟩
  rw [← List.drop_drop, place]
  rfl

/-- What is skipped, in the text and by its place. -/
theorem skipPlace_eq (here : str.drop j = zeroDigit :: (tail ++ [0])) (room : 3 ≤ tail.length) :
    ∃ count written rest, skipPlace str j = some (j + 1 + count) ∧ skipZeros tail = written :: rest ∧
      tail.drop count = written :: rest := by
  obtain ⟨second, third, fourth, rest, rfl⟩ : ∃ second third fourth rest, tail = second :: third :: fourth :: rest := by
    match tail, room with
    | second :: third :: fourth :: rest, _ => exact ⟨second, third, fourth, rest, rfl⟩
  have atSecond : str[j + 1]? = some second := by
    rw [← List.getElem?_drop, here]
    rfl
  have atThird : str[j + 2]? = some third := by
    rw [← List.getElem?_drop, here]
    rfl
  by_cases zero : second = zeroDigit
  · by_cases more : third = zeroDigit
    · refine ⟨2, fourth, rest, ?_, ?_, rfl⟩
      · simp [skipPlace, atSecond, atThird, zero, more]
      · simp [skipZeros, zero, more]
    · refine ⟨1, third, fourth :: rest, ?_, ?_, rfl⟩
      · simp [skipPlace, atSecond, atThird, zero, more]
      · simp [skipZeros, zero, more]
  · refine ⟨0, second, third :: fourth :: rest, ?_, ?_, rfl⟩
    · simp [skipPlace, atSecond, zero]
    · simp [skipZeros, zero]

/-- What is known of the byte written last. -/
def Written (j : Nat) (ipStr : Bytes) (last : Option UInt8) : Prop :=
  (j = 0 ∧ last = none) ∨ (j ≠ 0 ∧ last ≠ none ∧ ipStr.getLast? = last)

theorem beginsGroup_eq (written : Written j ipStr last) :
    beginsGroup j ipStr = some (decide (last = none ∨ last = some colon)) := by
  rcases written with ⟨start, nothing⟩ | ⟨behind, some, same⟩
  · simp [beginsGroup, start, nothing]
  · obtain ⟨byte, rfl⟩ := Option.ne_none_iff_exists'.mp some
    simp [beginsGroup, behind, same]

theorem ip6Loop_eq {turns : Nat} (here : str.drop j = tail ++ [0]) (text : 0 ∉ tail) (enough : tail.length ≤ turns)
    (fits : ipStr.length + tail.length < ipStrSize) (written : Written j ipStr last) (roomy : Roomy last tail) :
    ip6Loop str ipStrSize (turns + 1) j ipStr = some (ipStr ++ ip6Compress turns last tail) := by
  induction turns generalizing j ipStr tail last with
  | zero =>
      obtain rfl := List.eq_nil_of_length_eq_zero (Nat.le_zero.mp enough)
      have read := read_of_drop here
      have room : ipStr.length < ipStrSize := fits
      simp [ip6Loop, ip6Compress, read, room]
  | succ turns ih =>
      cases tail with
      | nil =>
          have read := read_of_drop here
          have room : ipStr.length < ipStrSize := fits
          simp [ip6Loop, ip6Compress, read, room]
      | cons byte tail =>
          have read := read_of_drop here
          have notEnd : byte ≠ 0 := fun zero => text (zero ▸ List.mem_cons_self)
          have begins := beginsGroup_eq written
          -- A byte is written from `count` behind, and what is behind it is left.
          have next (count : Nat) {later : UInt8} {rest : Bytes} (shape : (byte :: tail).drop count = later :: rest) :
              str[j + count]? = some later ∧ ip6Loop str ipStrSize (turns + 1) (j + count + 1) (ipStr ++ [later]) =
                some (ipStr ++ later :: ip6Compress turns (some later) rest) := by
            obtain ⟨found, behind⟩ := read_behind here shape
            have inside : later :: rest <:+ byte :: tail := shape ▸ List.drop_suffix _ _
            have length := inside.length_le
            have nonzero : 0 ∉ rest := fun zero => text (inside.subset (List.mem_cons_of_mem _ zero))
            rw [List.length_cons, List.length_cons] at length
            rw [List.length_cons] at enough fits
            refine ⟨found, ?_⟩
            rw [ih behind nonzero (by omega) (by rw [List.length_append, List.length_singleton]; omega)
              (.inr ⟨Nat.succ_ne_zero _, Option.some_ne_none _, List.getLast?_concat⟩) (roomy.next inside),
              List.append_assoc]
            rfl
          have room : ipStr.length < ipStrSize := by
            rw [List.length_cons] at fits
            omega
          rw [ip6Loop, ip6Compress]
          simp only [read, if_neg notEnd, begins]
          by_cases first : byte = zeroDigit ∧ (last = none ∨ last = some colon)
          · obtain ⟨zero, begins⟩ := first
            have long := roomy.length begins
            rw [List.length_cons] at long
            rw [zero] at here next
            obtain ⟨count, later, rest, skipped, same, dropped⟩ := skipPlace_eq here (Nat.le_of_succ_le_succ long)
            obtain ⟨found, rest⟩ := next (count + 1) dropped
            have order : j + 1 + count = j + (count + 1) := by omega
            rw [order] at skipped
            simp [zero, begins, skipped, same, found, room, rest]
          · obtain ⟨found, rest⟩ := next 0 rfl
            have plain : (if byte = zeroDigit then some (decide (last = none ∨ last = some colon)) else some false) =
                some false := by
              split
              case isTrue zero => simpa [zero] using first
              case isFalse => rfl
            rw [Nat.add_zero] at rest
            simp only [plain, read, if_neg first, Bool.false_eq_true, if_false, if_pos room, rest]

/-- The digits of a group without the zeros in front. -/
def shortGroup (high low : UInt8) : Bytes :=
  ((hexPair high low).take 3).dropWhile (· = zeroDigit) ++ (hexPair high low).drop 3

def hexChar (digit : UInt8) : UInt8 := if digit < 10 then 48 + digit else 87 + digit

def isHex (byte : UInt8) : Bool := isDigit byte || (97 ≤ byte && byte ≤ 102)

def hexValue (byte : UInt8) : Nat := if isDigit byte then byte.toNat - 48 else byte.toNat - 87

structure HexDigit (byte : UInt8) (value : Nat) : Prop where
  hex : isHex byte
  value : hexValue byte = value
  notColon : byte ≠ colon

theorem hexDigit_hexChar {digit : UInt8} (small : digit < 16) : HexDigit (hexChar digit) digit.toNat := by
  have all : ∀ digit : Fin 16, isHex (hexChar (UInt8.ofNat digit)) ∧ hexValue (hexChar (UInt8.ofNat digit)) = digit ∧
      hexChar (UInt8.ofNat digit) ≠ colon := by decide
  obtain ⟨hex, value, notColon⟩ := all ⟨digit.toNat, UInt8.lt_iff_toNat_lt.mp small⟩
  rw [UInt8.ofNat_toNat] at hex value notColon
  exact ⟨hex, value, notColon⟩

/-- The two bytes that a group stands for. A zero in front is not one of its
digits unless it is the only one. -/
def hexGroup (text : Bytes) : Option (UInt8 × UInt8) :=
  if text ≠ [] ∧ text.length ≤ 4 ∧ (text.head? = some zeroDigit → text.length = 1) ∧ text.all isHex then
    let value := text.foldl (fun value byte => value * 16 + hexValue byte) 0
    some (UInt8.ofNat (value / 256), UInt8.ofNat (value % 256))
  else none

theorem hexPair_digits (high low : UInt8) :
    ∃ a b c d, hexPair high low = [a, b, c, d] ∧ HexDigit a (high.toNat / 16) ∧ HexDigit b (high.toNat % 16) ∧
      HexDigit c (low.toNat / 16) ∧ HexDigit d (low.toNat % 16) := by
  have upper (byte : UInt8) : byte / 16 < 16 := by
    have bound := byte.toNat_lt
    rw [UInt8.lt_iff_toNat_lt, UInt8.toNat_div]
    exact Nat.div_lt_of_lt_mul bound
  have lower (byte : UInt8) : byte % 16 < 16 := by
    rw [UInt8.lt_iff_toNat_lt, UInt8.toNat_mod]
    exact Nat.mod_lt _ (by decide)
  have tens (byte : UInt8) := hexDigit_hexChar (upper byte)
  have ones (byte : UInt8) := hexDigit_hexChar (lower byte)
  simp only [UInt8.toNat_div, UInt8.toNat_mod] at tens ones
  exact ⟨_, _, _, _, rfl, tens high, ones high, tens low, ones low⟩

theorem hexPair_free {byte : UInt8} (other : isHex byte = false) (high low : UInt8) : byte ∉ hexPair high low := by
  obtain ⟨a, b, c, d, shape, first, second, third, fourth⟩ := hexPair_digits high low
  have different {digit : UInt8} {value : Nat} (hex : HexDigit digit value) : byte ≠ digit := by
    rintro rfl
    exact absurd hex.hex (by rw [other]; exact Bool.false_ne_true)
  rw [shape]
  simp only [List.mem_cons, List.not_mem_nil, or_false, not_or]
  exact ⟨different first, different second, different third, different fourth⟩

theorem hexGroup_some {text : Bytes} {high low : UInt8} (filled : text ≠ []) (short : text.length ≤ 4)
    (leading : text.head? = some zeroDigit → text.length = 1) (hex : text.all isHex)
    (value : text.foldl (fun value byte => value * 16 + hexValue byte) 0 = high.toNat * 256 + low.toNat) :
    hexGroup text = some (high, low) := by
  have lowBound := low.toNat_lt
  have upper : (high.toNat * 256 + low.toNat) / 256 = high.toNat := by omega
  have lower : (high.toNat * 256 + low.toNat) % 256 = low.toNat := by omega
  rw [hexGroup, if_pos ⟨filled, short, leading, hex⟩, value]
  dsimp only
  rw [upper, lower, UInt8.ofNat_toNat, UInt8.ofNat_toNat]

/-- The zeros that are left out do not count. -/
theorem hexGroup_shortGroup (high low : UInt8) : hexGroup (shortGroup high low) = some (high, low) := by
  obtain ⟨a, b, c, d, shape, first, second, third, fourth⟩ := hexPair_digits high low
  have value : ((hexValue a * 16 + hexValue b) * 16 + hexValue c) * 16 + hexValue d = high.toNat * 256 + low.toNat := by
    rw [first.value, second.value, third.value, fourth.value]
    omega
  have zeroValue : hexValue zeroDigit = 0 := rfl
  rw [shortGroup, shape]
  by_cases aZero : a = zeroDigit
  · by_cases bZero : b = zeroDigit
    · by_cases cZero : c = zeroDigit
      · rw [aZero, bZero, cZero, zeroValue] at value
        refine hexGroup_some ?_ ?_ ?_ ?_ ?_ <;> simp [aZero, bZero, cZero, fourth.hex]
        omega
      · rw [aZero, bZero, zeroValue] at value
        refine hexGroup_some ?_ ?_ ?_ ?_ ?_ <;> simp [aZero, bZero, cZero, third.hex, fourth.hex]
        omega
    · rw [aZero, zeroValue] at value
      refine hexGroup_some ?_ ?_ ?_ ?_ ?_ <;> simp [aZero, bZero, second.hex, third.hex, fourth.hex]
      omega
  · refine hexGroup_some ?_ ?_ ?_ ?_ ?_ <;> simp [aZero, first.hex, second.hex, third.hex, fourth.hex]
    omega

theorem shortGroup_free {byte : UInt8} (other : isHex byte = false) (high low : UInt8) : byte ∉ shortGroup high low := by
  intro member
  refine hexPair_free other high low ?_
  rcases List.mem_append.mp member with front | last
  · exact List.mem_of_mem_take ((List.dropWhile_sublist _).subset front)
  · exact List.mem_of_mem_drop last

theorem length_skipZeros (tail : Bytes) : (skipZeros tail).length ≤ tail.length := by
  unfold skipZeros
  split
  · exact Nat.le_refl _
  · split <;> simp

/-- Turns that are left over do nothing. -/
theorem ip6Compress_enough {turns : Nat} (last : Option UInt8) {text : Bytes} (enough : text.length ≤ turns) :
    ip6Compress turns last text = ip6Compress text.length last text := by
  induction turns using Nat.strongRecOn generalizing last text with
  | ind turns ih =>
      cases text with
      | nil => cases turns <;> rfl
      | cons byte tail =>
          obtain ⟨turns, rfl⟩ := Nat.exists_eq_succ_of_ne_zero (Nat.ne_of_gt (Nat.lt_of_lt_of_le (Nat.succ_pos _) enough))
          rw [List.length_cons] at enough ⊢
          rw [ip6Compress, ip6Compress]
          have shorter := length_skipZeros tail
          split
          · rfl
          · rename_i written rest shape
            have small : rest.length ≤ tail.length := by
              split at shape
              case isTrue =>
                rw [shape, List.length_cons] at shorter
                omega
              case isFalse =>
                cases shape
                exact Nat.le_refl _
            have same := ih turns (Nat.lt_succ_self _) (some written) (show rest.length ≤ turns by omega)
            have other := ih tail.length (by omega) (some written) small
            rw [same, other]

def ip6Text (last : Option UInt8) (text : Bytes) : Bytes := ip6Compress text.length last text

theorem ip6Text_plain {last : Option UInt8} {byte : UInt8}
    (plain : ¬(byte = zeroDigit ∧ (last = none ∨ last = some colon))) (tail : Bytes) :
    ip6Text last (byte :: tail) = byte :: ip6Text (some byte) tail := by
  rw [ip6Text, List.length_cons, ip6Compress, if_neg plain]
  rfl

theorem ip6Text_first {last : Option UInt8} (begins : last = none ∨ last = some colon) {tail rest : Bytes} {written : UInt8}
    (skipped : skipZeros tail = written :: rest) :
    ip6Text last (zeroDigit :: tail) = written :: ip6Text (some written) rest := by
  have shorter := length_skipZeros tail
  rw [skipped, List.length_cons] at shorter
  rw [ip6Text, List.length_cons, ip6Compress, if_pos ⟨rfl, begins⟩, skipped]
  dsimp only
  rw [ip6Compress_enough _ (by omega), ip6Text]

/-- Inside a group all is copied. -/
theorem ip6Text_copy {byte : UInt8} (inside : byte ≠ colon) {text : Bytes} (free : colon ∉ text) (rest : Bytes) :
    ip6Text (some byte) (text ++ rest) = text ++ ip6Text (some ((byte :: text).getLast (List.cons_ne_nil _ _))) rest := by
  induction text generalizing byte with
  | nil => rfl
  | cons first text ih =>
      rw [List.mem_cons, not_or] at free
      have plain : ¬(first = zeroDigit ∧ (some byte = none ∨ some byte = some colon)) := by
        rintro ⟨_, none | same⟩
        · cases none
        · exact inside (Option.some.inj same)
      rw [List.cons_append, ip6Text_plain plain, ih (Ne.symm free.1) free.2, List.getLast_cons_cons, List.cons_append]

theorem ip6Text_close {byte : UInt8} (inside : byte ≠ colon) {text : Bytes} (free : colon ∉ text) (rest : Bytes) :
    ip6Text (some byte) (text ++ colon :: rest) = text ++ colon :: ip6Text (some colon) rest := by
  rw [ip6Text_copy inside free, ip6Text_plain (fun zero => absurd zero.1 (by decide))]

theorem ip6Text_end {byte : UInt8} (inside : byte ≠ colon) {text : Bytes} (free : colon ∉ text) :
    ip6Text (some byte) text = text := by
  have copied := ip6Text_copy inside free []
  rw [List.append_nil] at copied
  exact copied.trans (List.append_nil _)

theorem ip6Text_group {last : Option UInt8} (begins : last = none ∨ last = some colon) (high low : UInt8) (rest : Bytes) :
    ip6Text last (hexPair high low ++ colon :: rest) = shortGroup high low ++ colon :: ip6Text (some colon) rest := by
  have pairFree : colon ∉ hexPair high low := hexPair_free (by decide) high low
  obtain ⟨a, b, c, d, shape, first, second, third, fourth⟩ := hexPair_digits high low
  rw [shape] at pairFree
  have free {text : Bytes} (inside : text ⊆ [a, b, c, d]) : colon ∉ text := fun member => pairFree (inside member)
  rw [shortGroup, shape]
  by_cases aZero : a = zeroDigit
  · rw [aZero]
    by_cases bZero : b = zeroDigit
    · rw [bZero]
      by_cases cZero : c = zeroDigit
      · rw [cZero]
        have skipped : skipZeros (zeroDigit :: zeroDigit :: d :: colon :: rest) = d :: colon :: rest := rfl
        have closed := ip6Text_close fourth.notColon List.not_mem_nil rest
        exact (ip6Text_first begins skipped).trans (congrArg (d :: ·) closed)
      · have skipped : skipZeros (zeroDigit :: c :: d :: colon :: rest) = c :: d :: colon :: rest := by
          simp [skipZeros, cZero]
        have closed := ip6Text_close third.notColon (free (show [d] ⊆ [a, b, c, d] by simp)) rest
        have short : [zeroDigit, zeroDigit, c].dropWhile (· = zeroDigit) = [c] := by simp [cZero]
        change _ = [zeroDigit, zeroDigit, c].dropWhile (· = zeroDigit) ++ [d] ++ _
        rw [short]
        exact (ip6Text_first begins skipped).trans (congrArg (c :: ·) closed)
    · have skipped : skipZeros (b :: c :: d :: colon :: rest) = b :: c :: d :: colon :: rest := by
        simp [skipZeros, bZero]
      have closed := ip6Text_close second.notColon (free (show [c, d] ⊆ [a, b, c, d] by simp)) rest
      have short : [zeroDigit, b, c].dropWhile (· = zeroDigit) = [b, c] := by simp [bZero]
      change _ = [zeroDigit, b, c].dropWhile (· = zeroDigit) ++ [d] ++ _
      rw [short]
      exact (ip6Text_first begins skipped).trans (congrArg (b :: ·) closed)
  · have closed := ip6Text_close first.notColon (free (show [b, c, d] ⊆ [a, b, c, d] by simp)) rest
    have short : [a, b, c].dropWhile (· = zeroDigit) = [a, b, c] := by simp [aZero]
    change _ = [a, b, c].dropWhile (· = zeroDigit) ++ [d] ++ _
    rw [short]
    exact (ip6Text_plain (fun zero => aZero zero.1) _).trans (congrArg (a :: ·) closed)

/-- A number up to 255 without zeros in front. -/
def octet (text : Bytes) : Option UInt8 :=
  if text ≠ [] ∧ text.all isDigit ∧ (text.head? = some zeroDigit → text.length = 1) ∧ leadingNumber text ≤ 255 then
    some (UInt8.ofNat (leadingNumber text))
  else none

def parseQuad (text : Bytes) : Option (UInt8 × UInt8 × UInt8 × UInt8) :=
  match text.splitOn dot with
  | [a, b, c, d] => do
      let a ← octet a
      let b ← octet b
      let c ← octet c
      let d ← octet d
      some (a, b, c, d)
  | _ => none

/-- The text of six groups of hexadecimal digits and a dotted quad. -/
def parseIp6 (text : Bytes) : Option Ip :=
  match text.splitOn colon with
  | [a, b, c, d, e, f, quad] => do
      let a ← hexGroup a
      let b ← hexGroup b
      let c ← hexGroup c
      let d ← hexGroup d
      let e ← hexGroup e
      let f ← hexGroup f
      let quad ← parseQuad quad
      some #v[a.1, a.2, b.1, b.2, c.1, c.2, d.1, d.2, e.1, e.2, f.1, f.2, quad.1, quad.2.1, quad.2.2.1, quad.2.2.2]
  | _ => none

theorem whole_decimal (byte : UInt8) : Whole (decimal byte.toNat) := whole_printed byte.toNat

theorem decimal_free {byte : UInt8} (other : isDigit byte = false) (octet : UInt8) : byte ∉ decimal octet.toNat :=
  fun member => digit_ne ((whole_decimal octet).digits byte member) other rfl

theorem octet_decimal (byte : UInt8) : octet (decimal byte.toNat) = some byte := by
  have shape := whole_decimal byte
  have value : leadingNumber (decimal byte.toNat) = byte.toNat := leadingNumber_printed byte.toNat
  have small : byte.toNat ≤ 255 := Nat.le_of_lt_succ byte.toNat_lt
  have leading : (decimal byte.toNat).head? = some zeroDigit → (decimal byte.toNat).length = 1 := by
    intro zero
    rw [shape.leading zero]
    rfl
  rw [octet, value, if_pos ⟨shape.nonempty, List.all_eq_true.mpr shape.digits, leading, small⟩, UInt8.ofNat_toNat]

def dotted (a b c d : Bytes) : Bytes := a ++ dot :: (b ++ dot :: (c ++ dot :: d))

theorem splitOn_dotted {a b c d : Bytes} (aFree : dot ∉ a) (bFree : dot ∉ b) (cFree : dot ∉ c) (dFree : dot ∉ d) :
    (dotted a b c d).splitOn dot = [a, b, c, d] := by
  rw [dotted, List.splitOn_append_cons_self_of_not_mem aFree, List.splitOn_append_cons_self_of_not_mem bFree,
    List.splitOn_append_cons_self_of_not_mem cFree, List.splitOn_eq_singleton dFree]

theorem dotted_free {byte : UInt8} (notDot : byte ≠ dot) {a b c d : Bytes} (aFree : byte ∉ a) (bFree : byte ∉ b)
    (cFree : byte ∉ c) (dFree : byte ∉ d) : byte ∉ dotted a b c d := by
  simp only [dotted, List.mem_append, List.mem_cons, not_or]
  exact ⟨aFree, notDot, bFree, notDot, cFree, notDot, dFree⟩

/-- What is written for the first of the four bytes. -/
def firstOctet (byte : UInt8) : Bytes := if byte = 0 then [] else decimal byte.toNat

theorem firstOctet_free {byte : UInt8} (other : isDigit byte = false) (octet : UInt8) : byte ∉ firstOctet octet := by
  unfold firstOctet
  split
  · exact List.not_mem_nil
  · exact decimal_free other octet

theorem octet_firstOctet (byte : UInt8) : octet (firstOctet byte) = if byte = 0 then none else some byte := by
  unfold firstOctet
  split
  · rfl
  · exact octet_decimal byte

/-- The zero of the first byte is taken for the beginning of a group. -/
theorem ip6Text_quad (a b c d : UInt8) :
    ip6Text (some colon) (dotted (decimal a.toNat) (decimal b.toNat) (decimal c.toNat) (decimal d.toNat)) =
      dotted (firstOctet a) (decimal b.toNat) (decimal c.toNat) (decimal d.toNat) := by
  have notDigit : isDigit colon = false := by decide
  have free := dotted_free (show colon ≠ dot by decide) (decimal_free notDigit a) (decimal_free notDigit b) (decimal_free notDigit c)
    (decimal_free notDigit d)
  by_cases zero : a = 0
  · have zeroText : decimal a.toNat = [zeroDigit] := by
      rw [zero, decimal, UInt8.toNat_zero, printed_nat]
      decide
    rw [firstOctet, if_pos zero]
    rw [zeroText] at free ⊢
    rw [dotted, List.singleton_append] at free ⊢
    have tailFree := fun member => free (List.mem_cons_of_mem _ (List.mem_cons_of_mem _ member))
    rw [ip6Text_first (.inr rfl) rfl, ip6Text_end (by decide) tailFree]
    rfl
  · have shape := whole_decimal a
    rw [firstOctet, if_neg zero]
    cases text : decimal a.toNat with
    | nil => exact absurd text shape.nonempty
    | cons first rest =>
        rw [text] at free shape
        have digit := shape.digits first List.mem_cons_self
        have plain : ¬(first = zeroDigit ∧ (some colon = none ∨ some colon = some colon)) := by
          rintro ⟨leading, _⟩
          have alone := shape.leading (congrArg some leading)
          have value : leadingNumber (decimal a.toNat) = a.toNat := leadingNumber_printed a.toNat
          rw [text, alone] at value
          exact zero (UInt8.toNat_inj.mp value.symm)
        rw [dotted, List.cons_append] at free ⊢
        have tailFree := fun member => free (List.mem_cons_of_mem _ member)
        rw [ip6Text_plain plain, ip6Text_end (digit_ne digit notDigit) tailFree]

/-- The groups of the first twelve bytes as `group` prints them, each with its
colon, and what follows them. -/
def grouped (group : UInt8 → UInt8 → Bytes) (ip : Ip) (rest : Bytes) : Bytes :=
  group ip[0] ip[1] ++ colon :: (group ip[2] ip[3] ++ colon :: (group ip[4] ip[5] ++ colon ::
    (group ip[6] ip[7] ++ colon :: (group ip[8] ip[9] ++ colon :: (group ip[10] ip[11] ++ colon :: rest)))))

def quad (first : UInt8 → Bytes) (ip : Ip) : Bytes :=
  dotted (first ip[12]) (decimal ip[13].toNat) (decimal ip[14].toNat) (decimal ip[15].toNat)

theorem ip6Format_eq (ip : Ip) : ip6Format ip = grouped hexPair ip (quad (fun byte => decimal byte.toNat) ip) := by
  have pair (place : Nat) (inside : place + 1 < 16) :
      hexPair (ip.toList.getD place 0) (ip.toList.getD (place + 1) 0) = hexPair ip[place] ip[place + 1] := by
    simp only [List.getD_eq_getElem?_getD, Vector.getElem?_toList, Vector.getElem?_eq_getElem inside,
      Vector.getElem?_eq_getElem (Nat.lt_of_succ_lt inside), Option.getD_some]
  simp only [ip6Format, List.flatMap_cons, List.flatMap_nil, grouped, quad, dotted, List.append_assoc, List.cons_append,
    List.nil_append]
  rw [pair 0 (by decide), pair 2 (by decide), pair 4 (by decide), pair 6 (by decide), pair 8 (by decide),
    pair 10 (by decide)]
  rfl

theorem ip6Str_eq (ip : Ip) : ip6Str ip = grouped shortGroup ip (quad firstOctet ip) := by
  change ip6Text none (ip6Format ip) = _
  rw [ip6Format_eq, grouped, ip6Text_group (.inl rfl)]
  simp only [ip6Text_group (.inr rfl), quad, ip6Text_quad]
  rfl

theorem splitOn_grouped (ip : Ip) {rest : Bytes} (free : colon ∉ rest) :
    (grouped shortGroup ip rest).splitOn colon =
      [shortGroup ip[0] ip[1], shortGroup ip[2] ip[3], shortGroup ip[4] ip[5], shortGroup ip[6] ip[7],
        shortGroup ip[8] ip[9], shortGroup ip[10] ip[11], rest] := by
  have groupFree := shortGroup_free (show isHex colon = false by decide)
  simp only [grouped, List.splitOn_append_cons_self_of_not_mem (groupFree _ _), List.splitOn_eq_singleton free]

theorem bytes_eq (ip : Ip) :
    #v[ip[0], ip[1], ip[2], ip[3], ip[4], ip[5], ip[6], ip[7], ip[8], ip[9], ip[10], ip[11], ip[12], ip[13], ip[14],
      ip[15]] = ip := by
  refine Vector.ext fun place inside => ?_
  interval_cases place <;> rfl

theorem parseIp6_ip6Str (ip : Ip) : parseIp6 (ip6Str ip) = if ip[12] = 0 then none else some ip := by
  have notDigit : isDigit colon = false := by decide
  have dotFree : isDigit dot = false := by decide
  have free : colon ∉ quad firstOctet ip :=
    dotted_free (by decide) (firstOctet_free notDigit _) (decimal_free notDigit _) (decimal_free notDigit _) (decimal_free notDigit _)
  have parts := splitOn_dotted (firstOctet_free dotFree ip[12]) (decimal_free dotFree ip[13]) (decimal_free dotFree ip[14])
    (decimal_free dotFree ip[15])
  have last : parseQuad (quad firstOctet ip) = if ip[12] = 0 then none else some (ip[12], ip[13], ip[14], ip[15]) := by
    simp only [parseQuad, quad, parts, octet_firstOctet, octet_decimal, Option.bind_eq_bind, Option.bind_some]
    split <;> rfl
  simp only [parseIp6, ip6Str_eq, splitOn_grouped ip free, hexGroup_shortGroup, last, Option.bind_eq_bind, Option.bind_some]
  split
  · rfl
  · exact congrArg some (bytes_eq ip)

theorem hexPair_length (high low : UInt8) : (hexPair high low).length = 4 := rfl

theorem length_decimal (byte : UInt8) : 1 ≤ (decimal byte.toNat).length ∧ (decimal byte.toNat).length ≤ 3 := by
  have filled := List.length_pos_iff.mpr (whole_decimal byte).nonempty
  exact ⟨filled, length_printed_le (by decide) (Nat.lt_trans byte.toNat_lt (by decide))⟩

theorem length_quad (ip : Ip) :
    4 ≤ (quad (fun byte => decimal byte.toNat) ip).length ∧ (quad (fun byte => decimal byte.toNat) ip).length ≤ 15 := by
  have first := length_decimal ip[12]
  have second := length_decimal ip[13]
  have third := length_decimal ip[14]
  have fourth := length_decimal ip[15]
  simp only [quad, dotted, List.length_append, List.length_cons]
  omega

theorem length_ip6Format (ip : Ip) : (ip6Format ip).length ≤ 45 := by
  have last := length_quad ip
  simp only [ip6Format_eq, grouped, List.length_append, List.length_cons, hexPair_length]
  omega

theorem ip6Format_free (ip : Ip) : 0 ∉ ip6Format ip := by
  have notHex : isHex 0 = false := by decide
  have notDigit : isDigit 0 = false := by decide
  have notColon : (0 : UInt8) ≠ colon := by decide
  have notDot : (0 : UInt8) ≠ dot := by decide
  simp only [ip6Format_eq, grouped, quad, dotted, List.mem_append, List.mem_cons, not_or]
  simp only [hexPair_free notHex, decimal_free notDigit, notColon, notDot, not_false_eq_true, and_self]

/-- The last colon stands before the dotted quad. -/
theorem roomy_ip6Format (ip : Ip) : Roomy none (ip6Format ip) := by
  have notDigit : isDigit colon = false := by decide
  have free : colon ∉ quad (fun byte => decimal byte.toNat) ip :=
    dotted_free (by decide) (decimal_free notDigit _) (decimal_free notDigit _) (decimal_free notDigit _) (decimal_free notDigit _)
  have last : quad (fun byte => decimal byte.toNat) ip <:+ colon :: ip6Format ip := by
    rw [ip6Format_eq]
    have behind (front rest : Bytes) : rest <:+ front ++ colon :: rest := ⟨front ++ [colon], List.append_cons _ _ _ |>.symm⟩
    refine List.suffix_cons_iff.mpr (.inr ?_)
    exact (behind _ _).trans ((behind _ _).trans ((behind _ _).trans ((behind _ _).trans ((behind _ _).trans (behind _ _)))))
  intro behind inside
  by_contra short
  have within : colon :: behind <:+ quad (fun byte => decimal byte.toNat) ip := by
    refine List.suffix_of_suffix_length_le inside last ?_
    have long := (length_quad ip).1
    rw [List.length_cons]
    omega
  exact free (within.subset List.mem_cons_self)

theorem ip6StrBuffers_eq (ip : Ip) {ipStrSize : Nat} (room : 46 ≤ ipStrSize) :
    ip6StrBuffers ip ipStrSize = some (ip6Str ip) := by
  have short := length_ip6Format ip
  have whole : (ip6Format ip).take (ipStrSize - 1) = ip6Format ip := List.take_of_length_le (by omega)
  rw [ip6StrBuffers, whole, List.length_append, List.length_singleton, if_pos (by rw [strSize]; omega),
    ip6Loop_eq rfl (ip6Format_free ip) (Nat.le_refl _) (by rw [List.length_nil]; omega) (.inl ⟨rfl, rfl⟩)
      (roomy_ip6Format ip)]
  rfl

/-- The text stays inside the buffers, gives the address back and is that of no
other. -/
def Faithful (ipStrSize : Nat) (ip : Ip) : Prop :=
  ∃ text, ip6StrBuffers ip ipStrSize = some text ∧ parseIp6 text = some ip ∧
    ∀ other, ip6StrBuffers other ipStrSize = some text → other = ip

/-- The number of the dotted quad that is 0 and stands first is left out. -/
theorem ip6_faithful_iff (ip : Ip) {ipStrSize : Nat} (room : 46 ≤ ipStrSize) : Faithful ipStrSize ip ↔ ip[12] ≠ 0 := by
  have parsed := parseIp6_ip6Str ip
  constructor
  · rintro ⟨text, written, back, _⟩ zero
    rw [ip6StrBuffers_eq ip room, Option.some.injEq] at written
    rw [← written, parsed, if_pos zero] at back
    cases back
  · intro nonzero
    rw [if_neg nonzero] at parsed
    refine ⟨ip6Str ip, ip6StrBuffers_eq ip room, parsed, fun other same => ?_⟩
    rw [ip6StrBuffers_eq other room, Option.some.injEq] at same
    have otherParsed := parseIp6_ip6Str other
    rw [same, parsed] at otherParsed
    split at otherParsed
    · cases otherParsed
    · exact (Option.some.inj otherParsed).symm

def mapped : Ip := #v[0, 0, 0, 0, 0, 0, 0, 0, 0, 0, 255, 255, 10, 0, 0, 7]

def loopback : Ip := #v[0, 0, 0, 0, 0, 0, 0, 0, 0, 0, 0, 0, 0, 0, 0, 1]

theorem ip6_faithful_mapped : Faithful 46 mapped ↔ mapped[12] ≠ 0 := ip6_faithful_iff mapped (Nat.le_refl 46)

theorem loopback_text : ip6StrBuffers loopback 46 = some (ascii "0:0:0:0:0:0:.0.0.1") ∧ ¬Faithful 46 loopback := by
  have text : ip6StrBuffers loopback 46 = some (ascii "0:0:0:0:0:0:.0.0.1") := by decide +kernel
  refine ⟨text, fun ⟨other, same, back, _⟩ => ?_⟩
  obtain rfl := Option.some.inj (text.symm.trans same)
  exact absurd back (by decide +kernel)

end GalaGopher.Ebpf.LoadBalancer
