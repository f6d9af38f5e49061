import GalaGopher.Text.Bytes

namespace GalaGopher.Text

/-- Between characters, or inside one: the bounds of the next byte and the
number of plain continuation bytes after it. -/
inductive Utf8State where
  | between
  | inside (low high : UInt8) (more : Nat)
deriving DecidableEq

def utf8Lead (byte : UInt8) : Option Utf8State :=
  if byte < 0x80 then some .between
  else if 0xC2 ≤ byte ∧ byte ≤ 0xDF then some (.inside 0x80 0xBF 0)
  else if byte = 0xE0 then some (.inside 0xA0 0xBF 1)
  else if byte = 0xED then some (.inside 0x80 0x9F 1)
  else if 0xE1 ≤ byte ∧ byte ≤ 0xEF then some (.inside 0x80 0xBF 1)
  else if byte = 0xF0 then some (.inside 0x90 0xBF 2)
  else if byte = 0xF4 then some (.inside 0x80 0x8F 2)
  else if 0xF1 ≤ byte ∧ byte ≤ 0xF3 then some (.inside 0x80 0xBF 2)
  else none

def utf8Next : Utf8State → UInt8 → Option Utf8State
  | .between, byte => utf8Lead byte
  | .inside low high more, byte =>
      if 0x80 ≤ byte ∧ low ≤ byte ∧ byte ≤ high then
        match more with
        | 0 => some .between
        | more + 1 => some (.inside 0x80 0xBF more)
      else none

def utf8Run (state : Utf8State) (text : Bytes) : Option Utf8State := text.foldlM utf8Next state

/-- The text is a sequence of whole characters. -/
def Utf8 (text : Bytes) : Prop := utf8Run .between text = some .between

instance (text : Bytes) : Decidable (Utf8 text) := inferInstanceAs (Decidable (_ = _))

variable {state next : Utf8State} {byte : UInt8} {text before after : Bytes}

theorem utf8Next_ascii (small : byte < 0x80) (taken : utf8Next state byte = some next) :
    state = .between ∧ next = .between := by
  cases state with
  | between =>
      rw [utf8Next, utf8Lead, if_pos small] at taken
      cases taken
      exact ⟨rfl, rfl⟩
  | inside low high more =>
      simp only [utf8Next] at taken
      rw [if_neg fun bounds => absurd small (UInt8.not_lt.mpr bounds.1)] at taken
      cases taken

theorem utf8Run_append (state : Utf8State) (before after : Bytes) :
    utf8Run state (before ++ after) = (utf8Run state before).bind fun middle => utf8Run middle after :=
  List.foldlM_append

/-- An ASCII byte only stands between characters. -/
theorem utf8_append_cons_iff (small : byte < 0x80) : Utf8 (before ++ byte :: after) ↔ Utf8 before ∧ Utf8 after := by
  have ascii : utf8Next .between byte = some .between := by
    rw [utf8Next, utf8Lead, if_pos small]
  constructor
  · intro whole
    rw [Utf8, utf8Run_append, Option.bind_eq_some_iff] at whole
    obtain ⟨middle, first, rest⟩ := whole
    rw [utf8Run, List.foldlM_cons, Option.bind_eq_bind, Option.bind_eq_some_iff] at rest
    obtain ⟨next, taken, last⟩ := rest
    obtain ⟨rfl, rfl⟩ := utf8Next_ascii small taken
    exact ⟨first, last⟩
  · intro given
    obtain ⟨first, rest⟩ := given
    rw [Utf8, utf8Run_append, first, Option.bind_some, utf8Run, List.foldlM_cons, ascii]
    exact rest

theorem utf8_cons_iff (small : byte < 0x80) : Utf8 (byte :: after) ↔ Utf8 after := by
  have split := @utf8_append_cons_iff byte [] after small
  rw [List.nil_append] at split
  rw [split]
  exact and_iff_right rfl

theorem utf8_ascii_append_iff (small : before.all (· < 0x80)) : Utf8 (before ++ after) ↔ Utf8 after := by
  induction before with
  | nil => rfl
  | cons byte rest ih =>
      rw [List.all_cons, Bool.and_eq_true, decide_eq_true_eq] at small
      rw [List.cons_append, utf8_cons_iff small.1, ih small.2]

end GalaGopher.Text
