import GalaGopher.Text.Bytes
import Mathlib.Data.List.Infix

namespace GalaGopher.Text

/-- How far the first occurrence is behind the start. -/
def strstr (text needle : Bytes) : Option Nat :=
  if needle.isPrefixOf text then some 0
  else
    match text with
    | [] => none
    | _ :: rest => (strstr rest needle).map (· + 1)

variable {text needle front middle rest : Bytes} {byte stop : UInt8} {place : Nat}

theorem strstr_here (here : needle <+: text) : strstr text needle = some 0 := by
  unfold strstr
  rw [if_pos (List.isPrefixOf_iff_prefix.mpr here)]

theorem strstr_cons (elsewhere : ¬needle <+: byte :: rest) :
    strstr (byte :: rest) needle = (strstr rest needle).map (· + 1) := by
  rw [← List.isPrefixOf_iff_prefix] at elsewhere
  rw [strstr, if_neg elsewhere]

theorem strstr_nil (filled : needle ≠ []) : strstr [] needle = none := by
  unfold strstr
  rw [if_neg (by simpa using filled)]

theorem strstr_isSome_iff (text needle : Bytes) : (strstr text needle).isSome ↔ needle <:+: text := by
  induction text with
  | nil =>
      by_cases empty : needle = []
      · rw [strstr_here (empty ▸ List.nil_prefix)]
        simp [empty]
      · rw [strstr_nil empty]
        simp [empty]
  | cons byte rest ih =>
      rw [List.infix_cons_iff]
      by_cases here : needle <+: byte :: rest
      · rw [strstr_here here]
        simp [here]
      · rw [strstr_cons here, Option.isSome_map, ih, or_iff_right here]

/-- An occurrence that is known bounds the first. -/
theorem strstr_le (front needle rest : Bytes) :
    ∃ place ≤ front.length, strstr (front ++ (needle ++ rest)) needle = some place := by
  induction front with
  | nil => exact ⟨0, Nat.le_refl _, strstr_here (List.prefix_append needle rest)⟩
  | cons byte front ih =>
      by_cases here : needle <+: byte :: (front ++ (needle ++ rest))
      · exact ⟨0, Nat.zero_le _, strstr_here here⟩
      · obtain ⟨place, bound, found⟩ := ih
        refine ⟨place + 1, Nat.succ_le_succ bound, ?_⟩
        rw [List.cons_append, strstr_cons here, found]
        rfl

/-- No occurrence begins in the front of the text. -/
def Absent (needle : Bytes) : Bytes → Bytes → Prop
  | [], _ => True
  | byte :: front, rest => ¬needle <+: byte :: (front ++ rest) ∧ Absent needle front rest

theorem strstr_absent (absent : Absent needle front rest) :
    strstr (front ++ rest) needle = (strstr rest needle).map (front.length + ·) := by
  induction front with
  | nil => simp
  | cons byte front ih =>
      rw [List.cons_append, strstr_cons absent.1, ih absent.2, Option.map_map]
      refine congrArg (fun shift => (strstr rest needle).map shift) (funext fun place => ?_)
      simp only [Function.comp_apply, List.length_cons]
      omega

theorem strstr_first (absent : Absent needle front (needle ++ rest)) :
    strstr (front ++ (needle ++ rest)) needle = some front.length := by
  rw [strstr_absent absent, strstr_here (List.prefix_append needle rest)]
  rfl

theorem strstr_ge (absent : Absent needle front rest) (found : strstr (front ++ rest) needle = some place) :
    front.length ≤ place := by
  rw [strstr_absent absent] at found
  obtain ⟨later, _, rfl⟩ := Option.map_eq_some_iff.mp found
  exact Nat.le_add_right _ _

theorem strstr_eq_none (filled : needle ≠ []) (absent : Absent needle text []) : strstr text needle = none := by
  have searched := strstr_absent absent
  rw [List.append_nil, strstr_nil filled] at searched
  exact searched

theorem infix_append_left_iff (filled : needle ≠ []) (foreign : ∀ byte ∈ needle, byte ∉ front) (text : Bytes) :
    needle <:+: front ++ text ↔ needle <:+: text := by
  obtain ⟨first, more, rfl⟩ := List.exists_cons_of_ne_nil filled
  induction front with
  | nil => rfl
  | cons byte front ih =>
      have outside := foreign first List.mem_cons_self
      rw [List.mem_cons, not_or] at outside
      have elsewhere : ¬first :: more <+: byte :: (front ++ text) :=
        fun here => outside.1 (List.cons_prefix_cons.mp here).1
      rw [List.cons_append, List.infix_cons_iff, or_iff_right elsewhere]
      exact ih fun byte member inside => foreign byte member (List.mem_cons_of_mem _ inside)

theorem infix_append_right_iff (filled : needle ≠ []) (foreign : ∀ byte ∈ needle, byte ∉ rest) (text : Bytes) :
    needle <:+: text ++ rest ↔ needle <:+: text := by
  have reversed : needle.reverse <:+: rest.reverse ++ text.reverse ↔ needle.reverse <:+: text.reverse :=
    infix_append_left_iff (by simpa using filled) (by simpa using foreign) text.reverse
  rw [← List.reverse_append, List.reverse_infix, List.reverse_infix] at reversed
  exact reversed

theorem Absent.append (before : Absent needle front (middle ++ rest)) (behind : Absent needle middle rest) :
    Absent needle (front ++ middle) rest := by
  induction front with
  | nil => exact behind
  | cons byte front ih =>
      refine ⟨?_, ih before.2⟩
      change ¬needle <+: byte :: (front ++ middle ++ rest)
      rw [List.append_assoc]
      exact before.1

theorem absent_of_head (first : UInt8) (needle : Bytes) (free : first ∉ front) (rest : Bytes) :
    Absent (first :: needle) front rest := by
  induction front with
  | nil => trivial
  | cons byte front ih =>
      rw [List.mem_cons, not_or] at free
      refine ⟨fun here => ?_, ih free.2⟩
      exact free.1 (List.cons_prefix_cons.mp here).1

/-- What follows cannot belong to an occurrence. -/
theorem absent_of_outside (outside : ¬needle <:+: front) (foreign : stop ∉ needle) (rest : Bytes) :
    Absent needle front (stop :: rest) := by
  induction front with
  | nil => trivial
  | cons byte front ih =>
      refine ⟨fun here => ?_, ih fun inside => outside (List.infix_cons inside)⟩
      by_cases fits : needle.length ≤ (byte :: front).length
      · have inFront : needle <+: byte :: front :=
          List.prefix_of_prefix_length_le here (List.prefix_append (byte :: front) (stop :: rest)) fits
        exact outside inFront.isInfix
      · have whole : byte :: front ++ [stop] <+: byte :: (front ++ stop :: rest) :=
          ⟨rest, by simp⟩
        have longer : byte :: front ++ [stop] <+: needle := by
          refine List.prefix_of_prefix_length_le whole here ?_
          rw [List.length_append, List.length_singleton]
          omega
        exact foreign (longer.subset (by simp))

/-- A first byte alone is no occurrence. -/
theorem absent_of_next (first second : UInt8) (needle : Bytes) (byte : UInt8) (other : byte ≠ second) (rest : Bytes) :
    Absent (first :: second :: needle) [first] (byte :: rest) := by
  refine ⟨fun here => ?_, trivial⟩
  have later := (List.cons_prefix_cons.mp here).2
  exact other (List.cons_prefix_cons.mp later).1.symm

end GalaGopher.Text
