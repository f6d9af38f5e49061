import GalaGopher.Probe.Fprintf
import GalaGopher.Text.Field
import GalaGopher.Text.Printed

namespace GalaGopher.Probe.Fprintf.Standard

open Text

/-! What `fprintf` writes by the C standard, for the conversions `d`, `i`, `u`,
`o`, `x`, `X`, `c`, `s` and `%%`.  A text has no value where the standard leaves
the behaviour undefined. -/

inductive Flag where
  | minus
  | plus
  | space
  | sharp
  | zero
deriving DecidableEq

/-- The field width; a literal one does not start with a zero. -/
inductive Width where
  | absent
  | literal (lead : Fin 9) (rest : List (Fin 10))
  | star (value : Int32)

inductive Precision where
  | absent
  | literal (digits : List (Fin 10))
  | star (value : Int32) (nonneg : 0 ≤ value.toInt)

inductive Length where
  | absent
  | h
  | l
  | ll
deriving DecidableEq

inductive Integer where
  | d
  | i
  | u
  | o
  | x
  | X
deriving DecidableEq

/-- The conversion with its argument: the integer in its 64 bits, the memory
behind the pointer. -/
inductive Operand where
  | integer (letter : Integer) (bits : UInt64)
  | character (value : UInt32)
  | string (address : UInt64) (memory : Bytes)
  | percent

structure Directive where
  flags : List Flag := []
  width : Width := .absent
  precision : Precision := .absent
  length : Length := .absent
  operand : Operand

inductive Item where
  | ordinary (byte : UInt8) (plain : byte ≠ 0 ∧ byte ≠ percent)
  | conversion (directive : Directive)

def Flag.byte : Flag → UInt8
  | .minus => dash
  | .plus => 43
  | .space => Text.space
  | .sharp => 35
  | .zero => 48

def digitByte (digit : Fin 10) : UInt8 := UInt8.ofNat (48 + digit)

def numeralFrom (number : Nat) (digits : List (Fin 10)) : Nat :=
  digits.foldl (fun number digit => number * 10 + digit) number

def numeral (digits : List (Fin 10)) : Nat := numeralFrom 0 digits

def Width.digits (lead : Fin 9) (rest : List (Fin 10)) : List (Fin 10) := lead.succ :: rest

def Width.bytes : Width → Bytes
  | .absent => []
  | .literal lead rest => (Width.digits lead rest).map digitByte
  | .star _ => [Fprintf.star]

def Precision.bytes : Precision → Bytes
  | .absent => []
  | .literal digits => dot :: digits.map digitByte
  | .star _ _ => [dot, Fprintf.star]

def Length.bytes : Length → Bytes
  | .absent => []
  | .h => [104]
  | .l => [108]
  | .ll => [108, 108]

def Integer.byte : Integer → UInt8
  | .d => 100
  | .i => 105
  | .u => 117
  | .o => 111
  | .x => 120
  | .X => 88

def Operand.byte : Operand → UInt8
  | .integer letter _ => letter.byte
  | .character _ => 99
  | .string _ _ => 115
  | .percent => Text.percent

/-- What follows the percent sign. -/
def Directive.bytes (directive : Directive) : Bytes :=
  directive.flags.map Flag.byte ++ directive.width.bytes ++ directive.precision.bytes ++ directive.length.bytes ++
    [directive.operand.byte]

def Item.bytes : Item → Bytes
  | .ordinary byte _ => [byte]
  | .conversion directive => percent :: directive.bytes

def format (items : List Item) : Bytes := items.flatMap Item.bytes

section Arguments

variable {δ : Type}

def Width.arguments : Width → List (Arg δ)
  | .star value => [.int value.toUInt32]
  | .absent | .literal _ _ => []

def Precision.arguments : Precision → List (Arg δ)
  | .star value _ => [.int value.toUInt32]
  | .absent | .literal _ => []

def Operand.arguments (length : Length) : Operand → List (Arg δ)
  | .integer _ bits => if length = .l ∨ length = .ll then [.long bits] else [.int bits.toUInt32]
  | .character value => [.int value]
  | .string address memory => [.pointer address memory]
  | .percent => []

def Directive.arguments (directive : Directive) : List (Arg δ) :=
  directive.width.arguments ++ directive.precision.arguments ++ directive.operand.arguments directive.length

def Item.arguments : Item → List (Arg δ)
  | .ordinary _ _ => []
  | .conversion directive => directive.arguments

def arguments (items : List Item) : List (Arg δ) := items.flatMap Item.arguments

end Arguments

/-- A negative field width is a `-` flag and a positive one. -/
def Width.value : Width → Nat
  | .absent => 0
  | .literal lead rest => numeral (Width.digits lead rest)
  | .star value => value.toInt.natAbs

def Width.leftward : Width → Bool
  | .star value => value.toInt < 0
  | .absent | .literal _ _ => false

def Precision.value : Precision → Option Nat
  | .absent => none
  | .literal digits => some (numeral digits)
  | .star value _ => some value.toInt.toNat

def Integer.signed : Integer → Bool
  | .d | .i => true
  | .u | .o | .x | .X => false

def Integer.base : Integer → Nat
  | .d | .i | .u => 10
  | .o => 8
  | .x | .X => 16

namespace Directive

variable (directive : Directive)

def has (flag : Flag) : Bool := directive.flags.contains flag

def left : Bool := directive.has .minus || directive.width.leftward

/-- The argument as the type that the length and the conversion name. -/
def value (letter : Integer) (bits : UInt64) : Int :=
  match directive.length with
  | .absent => if letter.signed then bits.toUInt32.toInt32.toInt else bits.toUInt32.toNat
  | .h => if letter.signed then bits.toUInt16.toInt16.toInt else bits.toUInt16.toNat
  | .l | .ll => if letter.signed then bits.toInt64.toInt else bits.toNat

end Directive

def figures (letter : Integer) (number : Nat) : Bytes :=
  (Nat.toDigits letter.base number).map fun character =>
    Text.digitByte (if letter = .X then character.toUpper else character)

/-- At least as many digits as the precision says, and none for a zero without
any. -/
def precise (letter : Integer) (precision : Option Nat) (number : Nat) : Bytes :=
  let shown := if number = 0 ∧ precision = some 0 then [] else figures letter number
  List.replicate (precision.getD 1 - shown.length) 48 ++ shown

/-- `#` makes the first digit of an octal number a zero. -/
def octal (digits : Bytes) : Bytes := if digits.head? = some 48 then digits else 48 :: digits

namespace Directive

variable (directive : Directive)

def signBytes (letter : Integer) (value : Int) : Bytes :=
  if letter.signed then
    if value < 0 then [dash]
    else if directive.has .plus then [43]
    else if directive.has .space then [Text.space]
    else []
  else
    []

/-- `0x` before a hexadecimal number that is not zero -/
def radixBytes (letter : Integer) (value : Int) : Bytes :=
  if directive.has .sharp ∧ value ≠ 0 then
    match letter with
    | .x => [48, 120]
    | .X => [48, 88]
    | .d | .i | .u | .o => []
  else
    []

def integerDigits (letter : Integer) (value : Int) : Bytes :=
  let digits := precise letter directive.precision.value value.natAbs
  if directive.has .sharp ∧ letter = .o then octal digits else digits

/-- An integer in a field; zeros fill it if no precision is there. -/
def integerText (letter : Integer) (width : Nat) (value : Int) : Bytes :=
  justified directive.left (directive.has .zero && directive.precision.value.isNone) width
    (directive.signBytes letter value ++ directive.radixBytes letter value) (directive.integerDigits letter value)

end Directive

/-- The characters of an array up to its null character or the limit. -/
def narrowText : Option Nat → Bytes → Option Bytes
  | some 0, _ => some []
  | _, [] => none
  | limit, byte :: rest =>
      if byte = 0 then some [] else (narrowText (limit.map (· - 1)) rest).map (byte :: ·)

/-- The same of an array of wide characters, the low byte of each first.  What
is written for those outside the basic character set is up to the locale. -/
def wideText : Option Nat → Bytes → Option Bytes
  | some 0, _ => some []
  | limit, byte :: second :: third :: fourth :: rest =>
      if second = 0 ∧ third = 0 ∧ fourth = 0 ∧ byte < 128 then
        if byte = 0 then some [] else (wideText (limit.map (· - 1)) rest).map (byte :: ·)
      else
        none
  | _, _ => none

namespace Directive

variable (directive : Directive)

/-- One character; standards differ on what a null wide character writes. -/
def characterText (value : UInt32) : Option Bytes :=
  if directive.has .sharp ∨ directive.has .zero ∨ directive.precision.value.isSome then
    none
  else
    match directive.length with
    | .absent => some [value.toUInt8]
    | .l => if 0 < value ∧ value < 128 then some [value.toUInt8] else none
    | .h | .ll => none

def stringText (memory : Bytes) : Option Bytes :=
  if directive.has .sharp ∨ directive.has .zero then
    none
  else
    match directive.length with
    | .absent => narrowText directive.precision.value memory
    | .l => wideText directive.precision.value memory
    | .h | .ll => none

def written : Option Bytes :=
  match directive.operand with
  | .integer letter bits =>
      if directive.has .sharp ∧ (letter.signed ∨ letter = .u) then none
      else some (directive.integerText letter directive.width.value (directive.value letter bits))
  | .character value =>
      (directive.characterText value).map fun text => justified directive.left false directive.width.value [] text
  | .string _ memory =>
      (directive.stringText memory).map fun text => justified directive.left false directive.width.value [] text
  | .percent => if directive.bytes = [percent] then some [percent] else none

end Directive

def Item.written : Item → Option Bytes
  | .ordinary byte _ => some [byte]
  | .conversion directive => directive.written

def written : List Item → Option Bytes
  | [] => some []
  | item :: items => do
      let text ← item.written
      let rest ← written items
      pure (text ++ rest)

end GalaGopher.Probe.Fprintf.Standard
