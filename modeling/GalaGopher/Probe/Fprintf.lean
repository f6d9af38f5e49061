import GalaGopher.Data.BoundedQueue
import GalaGopher.Text.Options
import Mathlib.Data.Nat.Digits.Defs

namespace GalaGopher.Probe.Fprintf

open Data Text

/-! `__wrap_fprintf`, by which the probes inside the process hand over their
lines.  A signed overflow, a read behind the end of an argument, an argument of
another type and a write behind the end of `dataStr` are undefined. -/

def maxDataStrLen : Nat := 2048

def intMax : Nat := 2147483647

/-- What `strnlen` returns, as an `int`. -/
def asInt (size : Nat) : Int := (size : Int).bmod (2 ^ 32)

/-- The bits of `flags`. -/
structure Flags where
  zeroPad : Bool := false
  sign : Bool := false
  plus : Bool := false
  space : Bool := false
  left : Bool := false
  small : Bool := false
  special : Bool := false
deriving DecidableEq

inductive Qualifier where
  | h
  | l
  | L
  | q
deriving DecidableEq

/-- An argument as it was passed; `δ` is `double`, and a pointer leads to the
bytes that may be read from there on. -/
inductive Arg (δ : Type) where
  | int (value : UInt32)
  | long (value : UInt64)
  | double (value : δ)
  | pointer (address : UInt64) (memory : Bytes)
  | count

variable {δ : Type}

def intArg : List (Arg δ) → Outcome (UInt32 × List (Arg δ))
  | .int value :: args => .ok (value, args)
  | _ => .error .undefined

def longArg : List (Arg δ) → Outcome (UInt64 × List (Arg δ))
  | .long value :: args => .ok (value, args)
  | _ => .error .undefined

def doubleArg : List (Arg δ) → Outcome (δ × List (Arg δ))
  | .double value :: args => .ok (value, args)
  | _ => .error .undefined

def pointerArg : List (Arg δ) → Outcome ((UInt64 × Bytes) × List (Arg δ))
  | .pointer address memory :: args => .ok ((address, memory), args)
  | _ => .error .undefined

def countArg : List (Arg δ) → Outcome (List (Arg δ))
  | .count :: args => .ok args
  | _ => .error .undefined

/-- `__skip_atoi`; the character is added before that of zero is taken away. -/
def skipAtoi (i : Nat) : Bytes → Outcome (Nat × Bytes)
  | [] => .ok (i, [])
  | byte :: rest =>
      if isDigit byte then
        if i * 10 + byte.toNat ≤ intMax then skipAtoi (i * 10 + byte.toNat - 48) rest else .error .undefined
      else
        .ok (i, byte :: rest)

def star : UInt8 := 42

def dot : UInt8 := 46

def Flags.raise (flags : Flags) (byte : UInt8) : Option Flags :=
  if byte = dash then some { flags with left := true }
  else if byte = 43 then some { flags with plus := true }
  else if byte = Text.space then some { flags with space := true }
  else if byte = 35 then some { flags with special := true }
  else if byte = 48 then some { flags with zeroPad := true }
  else none

def processFlags (flags : Flags) : Bytes → Flags × Bytes
  | [] => (flags, [])
  | byte :: rest =>
      match flags.raise byte with
      | some raised => processFlags raised rest
      | none => (flags, byte :: rest)

/-- The field width, with the flags it leaves. -/
def getFieldWidth (flags : Flags) (format : Bytes) (args : List (Arg δ)) :
    Outcome (Flags × Int × Bytes × List (Arg δ)) :=
  match format with
  | [] => .ok (flags, -1, [], args)
  | byte :: rest =>
      if isDigit byte then do
        let (width, rest) ← skipAtoi 0 (byte :: rest)
        pure (flags, width, rest, args)
      else if byte = star then do
        let (value, args) ← intArg args
        let width := value.toInt32.toInt
        if width < 0 then
          if width = -(intMax + 1) then .error .undefined else pure ({ flags with left := true }, -width, rest, args)
        else
          pure (flags, width, rest, args)
      else
        .ok (flags, -1, byte :: rest, args)

def getPrecision (format : Bytes) (args : List (Arg δ)) : Outcome (Int × Bytes × List (Arg δ)) :=
  match format with
  | [] => .ok (-1, [], args)
  | byte :: rest =>
      if byte = dot then
        match rest with
        | [] => .ok (0, [], args)
        | next :: after =>
            if isDigit next then do
              let (precision, after) ← skipAtoi 0 (next :: after)
              pure (precision, after, args)
            else if next = star then do
              let (value, args) ← intArg args
              let precision := value.toInt32.toInt
              pure (if precision < 0 then 0 else precision, after, args)
            else
              .ok (0, next :: after, args)
      else
        .ok (-1, byte :: rest, args)

def getQualifier : Bytes → Option Qualifier × Bytes
  | [] => (none, [])
  | byte :: rest =>
      if byte = 108 then
        match rest with
        | [] => (some .l, [])
        | next :: after => if next = 108 then (some .q, after) else (some .l, next :: after)
      else if byte = 104 then (some .h, rest)
      else if byte = 76 then (some .L, rest)
      else (none, byte :: rest)

/-- `while (size-- > 0) *str++ = byte;` -/
def pad (byte : UInt8) (size : Int) : Bytes := List.replicate size.toNat byte

/-- `size` behind that loop. -/
def spent (size : Int) : Int := if 0 < size then -1 else size - 1

def digits : Bytes := [48, 49, 50, 51, 52, 53, 54, 55, 56, 57, 65, 66, 67, 68, 69, 70]

/-- `0x20` or nothing -/
def Flags.locase (type : Flags) : UInt8 := if type.small then 32 else 0

/-- The sign that is written, and the number behind it. -/
def signOf (type : Flags) (num : UInt64) : Outcome (Bytes × UInt64) :=
  if type.sign then
    if num.toInt64 < 0 then
      if num.toInt64 = Int64.minValue then .error .undefined else .ok ([dash], -num)
    else if type.plus then .ok ([43], num)
    else if type.space then .ok ([Text.space], num)
    else .ok ([], num)
  else
    .ok ([], num)

/-- `0` or `0x`, by the base -/
def specialOf (type : Flags) (base : Nat) : Bytes :=
  if type.special then
    if base = 8 then [48] else if base = 16 then [48, 88 ||| type.locase] else []
  else
    []

/-- The digits in `tmp`, the last one first. -/
def tmpOf (type : Flags) (base num : Nat) : Bytes :=
  if num = 0 then [48] else (Nat.digits base num).map fun res => digits.getD res 0 ||| type.locase

/-- `__number`; for another base `str` would become `NULL`. -/
def number (num : UInt64) (base : Nat) (size precision : Int) (type : Flags) : Outcome Bytes :=
  if base < 2 ∨ 16 < base then
    .error .undefined
  else do
    let zeroPad := type.zeroPad && !type.left
    let c := if zeroPad then 48 else Text.space
    let (sign, num) ← signOf type num
    let special := specialOf type base
    let tmp := tmpOf type base num.toNat
    let i : Int := tmp.length
    let precision := if i > precision then i else precision
    let size := size - sign.length - special.length - precision
    let leads := !zeroPad && !type.left
    let filled := if leads then spent size else size
    let trailing := if type.left then filled else spent filled
    pure ((if leads then pad Text.space size else []) ++ sign ++ special ++ (if type.left then [] else pad c filled) ++
      pad 48 (precision - i) ++ tmp.reverse ++ pad Text.space trailing)

/-- The case of `c` -/
def character (flags : Flags) (fieldWidth : Int) (value : UInt32) : Bytes :=
  let gap := fieldWidth - 1
  (if flags.left then [] else pad Text.space gap) ++ [value.toUInt8] ++
    pad Text.space (if flags.left then gap else spent gap)

/-- The string that starts where the bytes do. -/
def cString (bytes : Bytes) : Bytes := bytes.takeWhile fun byte => byte ≠ 0

/-- `strnlen`, where a negative precision is no limit. -/
def strnlen (memory : Bytes) (precision : Int) : Outcome Nat :=
  if 0 ≤ precision ∧ precision ≤ (cString memory).length then .ok precision.toNat
  else if (cString memory).length < memory.length then .ok (cString memory).length
  else .error .undefined

/-- The case of `s` -/
def string (flags : Flags) (fieldWidth precision : Int) (memory : Bytes) : Outcome Bytes := do
  let len := asInt (← strnlen memory precision)
  let gap := fieldWidth - len
  pure ((if flags.left then [] else pad Text.space gap) ++ memory.take len.toNat ++
    pad Text.space (if flags.left then gap else spent gap))

/-- The field width and the precision that are left in `buf_format`; one that
was cut short is no conversion. -/
def bufFormat (fieldWidth precision : Int) : Outcome (Option Nat × Option Nat) :=
  if 0 < precision then
    let digits := (ascii (toString precision)).length
    if 0 < fieldWidth then
      if (ascii (toString fieldWidth)).length + digits + 3 < 16 then .ok (some fieldWidth.toNat, some precision.toNat)
      else .error .undefined
    else
      .ok (none, some precision.toNat)
  else
    .ok (none, none)

/-- The letters of the last `switch`. -/
inductive Letter where
  | c
  | s
  | f
  | p
  | n
  | percent
  | integer (base : Nat) (signed small : Bool)
  | other
deriving DecidableEq

def letterOf (byte : UInt8) : Letter :=
  if byte = 99 then .c
  else if byte = 115 then .s
  else if byte = 102 then .f
  else if byte = 112 then .p
  else if byte = 110 then .n
  else if byte = percent then .percent
  else if byte = 111 then .integer 8 false false
  else if byte = 120 then .integer 16 false true
  else if byte = 88 then .integer 16 false false
  else if byte = 100 ∨ byte = 105 then .integer 10 true false
  else if byte = 117 then .integer 10 false false
  else .other

/-- One turn of the loop, with the argument that it takes. -/
inductive Piece (δ : Type) where
  | plain (bytes : Bytes)
  | character (flags : Flags) (fieldWidth : Int) (value : UInt32)
  | string (flags : Flags) (fieldWidth precision : Int) (memory : Bytes)
  | double (fieldWidth precision : Int) (value : δ)
  | count
  | integer (num : UInt64) (base : Nat) (fieldWidth precision : Int) (flags : Flags)

/-- The number that an integer conversion takes. -/
def integerArg (qualifier : Option Qualifier) (signed : Bool) (args : List (Arg δ)) :
    Outcome (UInt64 × List (Arg δ)) :=
  match qualifier with
  | some .l | some .q => longArg args
  | some .h => do
      let (value, args) ← intArg args
      pure (if signed then value.toUInt16.toInt16.toInt64.toUInt64 else value.toUInt16.toUInt64, args)
  | some .L | none => do
      let (value, args) ← intArg args
      pure (if signed then value.toInt32.toInt64.toUInt64 else value.toUInt64, args)

/-- The conversion, from its letter on; `--curFormat` where the format ends. -/
def conversion (flags : Flags) (fieldWidth precision : Int) (qualifier : Option Qualifier) (format : Bytes)
    (args : List (Arg δ)) : Outcome (Piece δ × Bytes × List (Arg δ)) :=
  match format with
  | [] => .ok (.plain [percent], [], args)
  | byte :: rest =>
      match letterOf byte with
      | .c => do
          let (value, args) ← intArg args
          pure (.character flags fieldWidth value, rest, args)
      | .s => do
          let (pointer, args) ← pointerArg args
          pure (.string flags fieldWidth precision pointer.2, rest, args)
      | .f => do
          let (value, args) ← doubleArg args
          pure (.double fieldWidth precision value, rest, args)
      | .p => do
          let (pointer, args) ← pointerArg args
          let unset := fieldWidth = -1
          pure (.integer pointer.1 16 (if unset then 16 else fieldWidth) precision
            { flags with zeroPad := flags.zeroPad || unset }, rest, args)
      | .n => do
          let args ← countArg args
          pure (.count, rest, args)
      | .percent => .ok (.plain [percent], rest, args)
      | .integer base signed small => do
          let flags := { flags with sign := signed, small }
          let (num, args) ← integerArg qualifier signed args
          pure (.integer num base fieldWidth precision flags, rest, args)
      | .other => .ok (.plain [percent, byte], rest, args)

/-- What one turn reads, from a character that is there. -/
def turn (byte : UInt8) (rest : Bytes) (args : List (Arg δ)) : Outcome (Piece δ × Bytes × List (Arg δ)) :=
  if byte ≠ percent then
    .ok (.plain [byte], rest, args)
  else do
    let (flags, rest) := processFlags {} rest
    let (flags, fieldWidth, rest, args) ← getFieldWidth flags rest args
    let (precision, rest, args) ← getPrecision rest args
    let (qualifier, rest) := getQualifier rest
    conversion flags fieldWidth precision qualifier rest args

/-- The turns of the loop; each takes a character at least. -/
def turns : Nat → Bytes → List (Arg δ) → Outcome (List (Piece δ))
  | _, [], _ => .ok []
  | 0, _ :: _, _ => .error .undefined
  | fuel + 1, byte :: rest, args => do
      let (piece, rest, args) ← turn byte rest args
      let pieces ← turns fuel rest args
      pure (piece :: pieces)

/-- What is written behind `dataStr`; `fixed` is the text that `snprintf` makes
of a `double`. -/
def Piece.text (fixed : Option Nat → Option Nat → δ → Bytes) : Piece δ → Outcome Bytes
  | .plain bytes => .ok bytes
  | .character flags fieldWidth value => .ok (Fprintf.character flags fieldWidth value)
  | .string flags fieldWidth precision memory => Fprintf.string flags fieldWidth precision memory
  | .double fieldWidth precision value => do
      let (width, digits) ← bufFormat fieldWidth precision
      pure ((fixed width digits value).take 63)
  | .count => .ok []
  | .integer num base fieldWidth precision flags => number num base fieldWidth precision flags

def textOf (fixed : Option Nat → Option Nat → δ → Bytes) : List (Piece δ) → Outcome Bytes
  | [] => .ok []
  | piece :: pieces => do
      let text ← piece.text fixed
      let rest ← textOf fixed pieces
      pure (text ++ rest)

/-- What `%n` stores: how much is written so far. -/
def countsOf (fixed : Option Nat → Option Nat → δ → Bytes) (written : Nat) : List (Piece δ) → List Nat
  | [] => []
  | .count :: pieces => written :: countsOf fixed written pieces
  | piece :: pieces =>
      match piece.text fixed with
      | .ok text => countsOf fixed (written + text.length) pieces
      | .error _ => []

variable {capacity : Nat}

structure Finished (capacity : Nat) where
  ret : Int
  /-- The bytes written to `dataStr`, with the terminating NUL. -/
  written : Bytes
  fifo : BoundedQueue Bytes capacity
  counts : List Nat

/-- `__wrap_fprintf`; `allocated` and `triggered` say that `malloc` and `write`
succeed. -/
def wrapFprintf (fixed : Option Nat → Option Nat → δ → Bytes) (allocated triggered : Bool)
    (fifo : BoundedQueue Bytes capacity) (format : Bytes) (args : List (Arg δ)) : Outcome (Finished capacity) :=
  if allocated then do
    let pieces ← turns format.length format args
    let text ← textOf fixed pieces
    let counts := countsOf fixed 0 pieces
    let written := text ++ [0]
    if written.length ≤ maxDataStrLen then
      match fifo.put (cString text) with
      | (fifo, .stored) => pure { ret := if triggered then 0 else -1, written, fifo, counts }
      | (fifo, _) => pure { ret := -1, written, fifo, counts }
    else
      .error .undefined
  else
    .ok { ret := -1, written := [], fifo, counts := [] }

end GalaGopher.Probe.Fprintf
