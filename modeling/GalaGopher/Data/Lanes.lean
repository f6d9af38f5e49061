import Mathlib.Data.List.Basic
import Mathlib.Logic.Function.Basic

namespace GalaGopher.Data

variable {κ ε : Type}

/-- What waits, and what was taken so far. -/
structure Lanes (κ ε : Type) where
  pending : κ → List ε := fun _ => []
  taken : List (κ × ε) := []

/-- What one lane got, of items given with their lanes. -/
def inLane [DecidableEq κ] (lane : κ) (items : List (κ × ε)) : List ε :=
  (items.filter fun item => item.1 = lane).map Prod.snd

namespace Lanes

variable [DecidableEq κ]

def give (lanes : Lanes κ ε) (lane : κ) (item : ε) : Lanes κ ε :=
  { lanes with pending := Function.update lanes.pending lane (lanes.pending lane ++ [item]) }

/-- The oldest item of a lane is taken. -/
def take (lanes : Lanes κ ε) (lane : κ) : Lanes κ ε :=
  match lanes.pending lane with
  | [] => lanes
  | item :: rest =>
      { pending := Function.update lanes.pending lane rest
        taken := lanes.taken ++ [(lane, item)] }

/-- Each lane gave what it got, in that order, up to what waits in it. -/
def Follows (lanes : Lanes κ ε) (given : List (κ × ε)) : Prop :=
  ∀ lane, inLane lane given = inLane lane lanes.taken ++ lanes.pending lane

variable {lanes : Lanes κ ε} {given : List (κ × ε)} {lane other : κ} {item : ε}

theorem inLane_concat (given : List (κ × ε)) (lane other : κ) (item : ε) :
    inLane lane (given ++ [(other, item)]) =
      if other = lane then inLane lane given ++ [item] else inLane lane given := by
  by_cases same : other = lane
  · simp [inLane, same]
  · simp [inLane, same]

theorem mem_iff_inLane (items : List (κ × ε)) : (lane, item) ∈ items ↔ item ∈ inLane lane items := by
  simp [inLane]

theorem follows_empty : ({} : Lanes κ ε).Follows [] := fun _ => rfl

theorem Follows.give (follows : lanes.Follows given) (lane : κ) (item : ε) :
    (lanes.give lane item).Follows (given ++ [(lane, item)]) := by
  intro other
  have before := follows other
  rw [inLane_concat]
  by_cases same : lane = other
  · subst same
    simp [Lanes.give, before]
  · simp [Lanes.give, before, same, Function.update_of_ne (Ne.symm same)]

theorem Follows.take (follows : lanes.Follows given) (lane : κ) : (lanes.take lane).Follows given := by
  unfold Lanes.take
  split
  case h_1 => exact follows
  case h_2 item rest waiting =>
      intro other
      have before := follows other
      by_cases same : lane = other
      · subst same
        rw [inLane_concat, if_pos rfl, before, waiting]
        simp
      · rw [inLane_concat, if_neg same, before]
        simp only [Function.update_of_ne (Ne.symm same)]

/-- Once nothing waits, what was taken is what was given. -/
theorem Follows.mem_taken_iff (follows : lanes.Follows given) (empty : ∀ lane, lanes.pending lane = []) :
    (lane, item) ∈ lanes.taken ↔ (lane, item) ∈ given := by
  rw [mem_iff_inLane, mem_iff_inLane, follows lane, empty lane, List.append_nil]

/-- What a lane got and what waits in it was given in that order, with others in
between that were lost. -/
def Trails (lanes : Lanes κ ε) (given : List (κ × ε)) : Prop :=
  ∀ lane, (inLane lane lanes.taken ++ lanes.pending lane).Sublist (inLane lane given)

theorem Trails.give (trails : lanes.Trails given) (lane : κ) (item : ε) :
    (lanes.give lane item).Trails (given ++ [(lane, item)]) := by
  intro other
  have before := trails other
  rw [inLane_concat]
  by_cases same : lane = other
  · subst same
    rw [if_pos rfl]
    simp only [Lanes.give, Function.update_self, ← List.append_assoc]
    exact before.append_right [item]
  · rw [if_neg same]
    simpa only [Lanes.give, Function.update_of_ne (Ne.symm same)] using before

theorem Trails.take {rest : List ε} (trails : lanes.Trails given) (waiting : lanes.pending lane = item :: rest) :
    Trails { pending := Function.update lanes.pending lane rest, taken := lanes.taken ++ [(lane, item)] } given := by
  intro other
  have before := trails other
  rw [inLane_concat]
  by_cases same : lane = other
  · subst same
    rw [waiting] at before
    simpa only [if_true, Function.update_self, List.append_assoc, List.singleton_append] using before
  · simpa only [if_neg same, Function.update_of_ne (Ne.symm same)] using before

/-- What is given may never come into its lane. -/
theorem Trails.refuse (trails : lanes.Trails given) (more : List (κ × ε)) : lanes.Trails (given ++ more) := by
  intro lane
  have whole : inLane lane (given ++ more) = inLane lane given ++ inLane lane more := by
    rw [inLane, List.filter_append, List.map_append]
    rfl
  rw [whole]
  exact (trails lane).trans (List.sublist_append_left _ _)

/-- What was taken may be lost. -/
theorem Trails.lose {taken : List (κ × ε)} (trails : lanes.Trails given) (left : taken.Sublist lanes.taken) :
    Trails { lanes with taken } given := fun lane =>
  (((left.filter _).map _).append_right _).trans (trails lane)

theorem Trails.mem_taken (trails : lanes.Trails given) (member : (lane, item) ∈ lanes.taken) : (lane, item) ∈ given := by
  rw [mem_iff_inLane] at member ⊢
  exact (trails lane).subset (List.mem_append_left _ member)

end Lanes

end GalaGopher.Data
