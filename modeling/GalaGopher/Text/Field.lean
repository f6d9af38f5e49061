import GalaGopher.Text.Bytes
import Mathlib.Data.List.Count
import Mathlib.Tactic.Tauto

namespace GalaGopher.Text

/-- The text in a field: at its left, or at its right, where the zeros that fill
a field stand behind the head of the text. -/
def justified (left fill : Bool) (width : Nat) (head body : Bytes) : Bytes :=
  let gap := width - (head.length + body.length)
  if left then head ++ body ++ List.replicate gap 32
  else if fill then head ++ List.replicate gap 48 ++ body
  else List.replicate gap 32 ++ head ++ body

variable {left fill : Bool} {width : Nat} {head body : Bytes}

theorem justified_left (fill : Bool) (width : Nat) (head body : Bytes) :
    justified true fill width head body =
      head ++ body ++ List.replicate (width - (head.length + body.length)) 32 := rfl

theorem justified_filled (width : Nat) (head body : Bytes) :
    justified false true width head body =
      head ++ List.replicate (width - (head.length + body.length)) 48 ++ body := rfl

theorem justified_right (width : Nat) (head body : Bytes) :
    justified false false width head body =
      List.replicate (width - (head.length + body.length)) 32 ++ head ++ body := rfl

theorem justified_shape (left fill : Bool) (width : Nat) (head body : Bytes) :
    ∃ before zeros after, justified left fill width head body =
      List.replicate before 32 ++ head ++ List.replicate zeros 48 ++ body ++ List.replicate after 32 := by
  let gap := width - (head.length + body.length)
  cases left with
  | true => exact ⟨0, 0, gap, by simp [justified_left, gap]⟩
  | false =>
      cases fill with
      | true => exact ⟨0, gap, 0, by simp [justified_filled, gap]⟩
      | false => exact ⟨gap, 0, 0, by simp [justified_right, gap]⟩

theorem length_justified (left fill : Bool) (width : Nat) (head body : Bytes) :
    (justified left fill width head body).length = max width (head.length + body.length) := by
  cases left with
  | true => simp [justified_left]; omega
  | false => cases fill with
    | true => simp [justified_filled]; omega
    | false => simp [justified_right]; omega

theorem mem_justified {byte : UInt8} (member : byte ∈ head ∨ byte ∈ body) :
    byte ∈ justified left fill width head body := by
  cases left with
  | true =>
      rw [justified_left, List.mem_append, List.mem_append]
      exact .inl member
  | false => cases fill with
    | true =>
        rw [justified_filled, List.mem_append, List.mem_append]
        exact member.imp_left .inl
    | false =>
        rw [justified_right, List.mem_append, List.mem_append]
        exact member.imp_left .inr

theorem mem_of_mem_justified {byte : UInt8} (member : byte ∈ justified left fill width head body) :
    byte = 32 ∨ byte = 48 ∨ byte ∈ head ∨ byte ∈ body := by
  cases left with
  | true =>
      simp only [justified_left, List.mem_append, List.mem_replicate] at member
      tauto
  | false => cases fill with
    | true =>
        simp only [justified_filled, List.mem_append, List.mem_replicate] at member
        tauto
    | false =>
        simp only [justified_right, List.mem_append, List.mem_replicate] at member
        tauto

/-- The zeros of a field: those of its text, and those that fill it. -/
theorem count_justified (left fill : Bool) (width : Nat) (head body : Bytes) :
    (justified left fill width head body).count 48 = head.count 48 + body.count 48 +
      if fill ∧ ¬ left then width - (head.length + body.length) else 0 := by
  cases left with
  | true => simp [justified_left, List.count_replicate]
  | false => cases fill with
    | true => simp [justified_filled]; omega
    | false => simp [justified_right, List.count_replicate]

/-- A head of zeros may as well be part of the body. -/
theorem justified_zeros (left fill : Bool) (width count : Nat) (body : Bytes) :
    justified left fill width (List.replicate count 48) body =
      justified left fill width [] (List.replicate count 48 ++ body) := by
  cases left with
  | true => simp [justified_left]
  | false => cases fill with
    | true => simp [justified_filled, ← List.append_assoc, List.replicate_append_replicate, Nat.add_comm]
    | false => simp [justified_right]

/-- The zeros change nothing in a field that stands left or is full. -/
theorem justified_fill (spare : left = true ∨ width ≤ head.length + body.length) :
    justified left fill width head body = justified left false width head body := by
  unfold justified
  rcases spare with same | full
  · simp [same]
  · rw [Nat.sub_eq_zero_of_le full]
    simp

end GalaGopher.Text
