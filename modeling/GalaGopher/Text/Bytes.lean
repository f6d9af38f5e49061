import Mathlib.Algebra.Group.Nat.Defs
import Mathlib.Data.List.Basic

namespace GalaGopher.Text

/-! C strings, their fixed arrays and the `printf` family.

A string is the list of its bytes before the terminating NUL.  Writes through
`snprintf` are modelled by the text they leave in the destination.  A format
that asks for an argument the call does not pass has no meaning in C: such an
execution is `undefined`, which is kept apart from an error return. -/

abbrev Bytes := List UInt8

/-- The bytes of a source literal. -/
def ascii (text : String) : Bytes :=
  text.toList.map fun character => UInt8.ofNat character.toNat

theorem ascii_ofList (characters : List Char) :
    ascii (String.ofList characters) = characters.map fun character => UInt8.ofNat character.toNat := by
  rw [ascii, String.toList_ofList]

def newline : UInt8 := 10
def percent : UInt8 := 37
def bar : UInt8 := 124

/-- How an execution that produces no value ends. -/
inductive Fault where
  | undefined
  | failed
deriving DecidableEq, Repr

abbrev Outcome (α : Type) := Except Fault α

theorem Outcome.bind_ok_iff {α β : Type} {first : Outcome α} {next : α → Outcome β} {result : β} :
    (first >>= next) = .ok result ↔ ∃ value, first = .ok value ∧ next value = .ok result := by
  cases first with
  | error fault => simp [bind, Except.bind]
  | ok value => simp [bind, Except.bind]

/-- `char name[size]` holding a string and its terminator. -/
structure CharArray (size : Nat) where
  text : Bytes
  fits : text.length ≤ size - 1
deriving DecidableEq, Repr

namespace CharArray

variable {size : Nat}

@[ext] theorem ext {left right : CharArray size} (same : left.text = right.text) :
    left = right := by
  cases left
  cases right
  cases same
  rfl

/-- Keep what fits before the terminator. -/
def ofText (size : Nat) (text : Bytes) : CharArray size :=
  ⟨text.take (size - 1), List.length_take_le (size - 1) text⟩

@[simp] theorem ofText_text (text : Bytes) : (ofText size text).text = text.take (size - 1) := rfl

end CharArray

/-- The output of a format to which no argument is passed: `%%` prints one
percent sign and every other conversion reads an argument that is not there.
An invalid one, as the `%)` of `IUse(%)`, counts as such too, and so does the
`%m` of glibc, which would print `errno`. -/
def expandFormat : Bytes → Option Bytes
  | [] => some []
  | byte :: rest =>
      if byte = percent then
        match rest with
        | next :: after => if next = percent then (expandFormat after).map (percent :: ·) else none
        | [] => none
      else (expandFormat rest).map (byte :: ·)

theorem expandFormat_of_percent_free {format : Bytes} (free : percent ∉ format) :
    expandFormat format = some format := by
  induction format with
  | nil => rfl
  | cons byte rest ih =>
      simp only [List.mem_cons, not_or] at free
      unfold expandFormat
      rw [if_neg (Ne.symm free.1), ih free.2]
      rfl

/-- How a format that prints does so. -/
inductive Expands : Bytes → Bytes → Prop where
  | nil : Expands [] []
  | doubled {after tail : Bytes} (later : Expands after tail) :
      Expands (percent :: percent :: after) (percent :: tail)
  | plain {byte : UInt8} {rest tail : Bytes} (different : byte ≠ percent) (later : Expands rest tail) :
      Expands (byte :: rest) (byte :: tail)

theorem expands_of_expandFormat {format text : Bytes} (expanded : expandFormat format = some text) :
    Expands format text := by
  induction format using expandFormat.induct generalizing text with
  | case1 =>
      cases expanded
      exact .nil
  | case2 after ih =>
      simp only [expandFormat, ↓reduceIte, Option.map_eq_some_iff] at expanded
      obtain ⟨tail, tailExpanded, rfl⟩ := expanded
      exact .doubled (ih tailExpanded)
  | case3 next after different =>
      simp [expandFormat, different] at expanded
  | case4 => simp [expandFormat] at expanded
  | case5 byte rest different ih =>
      unfold expandFormat at expanded
      simp only [different, if_false, Option.map_eq_some_iff] at expanded
      obtain ⟨tail, tailExpanded, rfl⟩ := expanded
      exact .plain different (ih tailExpanded)

/-- Expansion never lengthens a format, and keeps its length only when there
is nothing to expand. -/
theorem expandFormat_length {format text : Bytes} (expanded : expandFormat format = some text) :
    text.length ≤ format.length ∧ (text.length = format.length → percent ∉ format) := by
  replace expanded := expands_of_expandFormat expanded
  induction expanded with
  | nil => simp
  | doubled later ih =>
      simp only [List.length_cons]
      exact ⟨by omega, by omega⟩
  | plain different later ih =>
      obtain ⟨shorter, exact⟩ := ih
      simp only [List.length_cons, Nat.add_right_cancel_iff, List.mem_cons, not_or]
      exact ⟨by omega, fun same => ⟨Ne.symm different, exact same⟩⟩

/-- A percent sign that prints at all prints as one. -/
theorem expandFormat_percent {format text : Bytes} (expanded : expandFormat format = some text)
    (member : percent ∈ format) : percent ∈ text := by
  replace expanded := expands_of_expandFormat expanded
  induction expanded with
  | nil => cases member
  | doubled later ih => exact List.mem_cons_self
  | plain different later ih =>
      rcases List.mem_cons.mp member with same | later
      · exact absurd same.symm different
      · exact List.mem_cons_of_mem _ (ih later)

theorem expandFormat_eq_self_iff {format : Bytes} :
    expandFormat format = some format ↔ percent ∉ format :=
  ⟨fun expanded => (expandFormat_length expanded).2 rfl, expandFormat_of_percent_free⟩

/-- `snprintf(destination, size, format)`: the array left by a call that
passes a string as the format and no argument. -/
def snprintf (size : Nat) (format : Bytes) : Outcome (CharArray size) :=
  match expandFormat format with
  | some text => .ok (.ofText size text)
  | none => .error .undefined

end GalaGopher.Text
