import Mathlib.Data.List.Induction

namespace GalaGopher.Data

variable {σ ε : Type} {step : σ → ε → σ → Prop} {first middle last : σ} {events later : List ε}

/-- A finite run: the labels it takes, in order, between its two ends. -/
inductive Runs (step : σ → ε → σ → Prop) (first : σ) : List ε → σ → Prop where
  | start : Runs step first [] first
  | next {state after : σ} {events : List ε} {event : ε}
      (earlier : Runs step first events state) (taken : step state event after) :
      Runs step first (events ++ [event]) after

/-- The invariant rule: what holds at the start and is kept by every step
holds wherever a run ends. -/
theorem Runs.invariant (holds : σ → Prop) (run : Runs step first events last)
    (initial : holds first)
    (kept : ∀ state event after, step state event after → holds state → holds after) :
    holds last := by
  induction run with
  | start => exact initial
  | next earlier taken ih => exact kept _ _ _ taken ih

/-- The invariant rule where the invariant also speaks of the labels so far. -/
theorem Runs.history (holds : List ε → σ → Prop) (run : Runs step first events last)
    (initial : holds [] first)
    (kept : ∀ past state event after, step state event after → holds past state →
      holds (past ++ [event]) after) :
    holds events last := by
  induction run with
  | start => exact initial
  | next earlier taken ih => exact kept _ _ _ _ taken ih

theorem Runs.trans (before : Runs step first events middle) (after : Runs step middle later last) :
    Runs step first (events ++ later) last := by
  induction after with
  | start => simpa using before
  | next earlier taken ih =>
      rw [← List.append_assoc]
      exact .next ih taken

theorem Runs.mono {other : σ → ε → σ → Prop} (run : Runs step first events last)
    (weaker : ∀ state event after, step state event after → other state event after) :
    Runs other first events last := by
  induction run with
  | start => exact .start
  | next earlier taken ih => exact ih.next (weaker _ _ _ taken)

/-- A step function runs through any labels. -/
theorem Runs.foldl (step : σ → ε → σ) (first : σ) (events : List ε) :
    Runs (fun state event after => step state event = after) first events (events.foldl step first) := by
  induction events using List.reverseRecOn with
  | nil => exact .start
  | append_singleton events event ih =>
      rw [List.foldl_append]
      exact .next ih rfl

/-- A step function that may refuse a label runs as far as it accepts them. -/
theorem Runs.foldlM (step : σ → ε → Option σ) (accepted : events.foldlM step first = some last) :
    Runs (fun state event after => step state event = some after) first events last := by
  induction events generalizing first with
  | nil =>
      cases accepted
      exact .start
  | cons event rest ih =>
      rw [List.foldlM_cons] at accepted
      obtain ⟨after, taken, later⟩ := Option.bind_eq_some_iff.mp accepted
      exact (Runs.next .start taken).trans (ih later)

/-- Each label is allowed where a step function comes to it. -/
def Allows (step : σ → ε → σ) (allowed : σ → ε → Prop) (first : σ) : List ε → Prop
  | [] => True
  | event :: rest => allowed first event ∧ Allows step allowed (step first event) rest

instance (step : σ → ε → σ) (allowed : σ → ε → Prop) [∀ state event, Decidable (allowed state event)]
    (first : σ) (events : List ε) : Decidable (Allows step allowed first events) := by
  induction events generalizing first with
  | nil => exact .isTrue trivial
  | cons event rest ih => exact @instDecidableAnd _ _ _ (ih (step first event))

theorem Allows.runs {step : σ → ε → σ} {allowed : σ → ε → Prop} (allows : Allows step allowed first events) :
    Runs (fun state event after => allowed state event ∧ step state event = after) first events
      (events.foldl step first) := by
  induction events generalizing first with
  | nil => exact .start
  | cons event rest ih => exact (Runs.next .start ⟨allows.1, rfl⟩).trans (ih allows.2)

/-- Two conditions on a step that are the same where an invariant holds are the
same of a run. -/
theorem Allows.iff_of_invariant {step : σ → ε → σ} {allowed other : σ → ε → Prop} (holds : σ → Prop)
    (kept : ∀ state event, holds state → holds (step state event))
    (same : ∀ state event, holds state → (allowed state event ↔ other state event)) (initial : holds first) :
    Allows step allowed first events ↔ Allows step other first events := by
  induction events generalizing first with
  | nil => exact Iff.rfl
  | cons event rest ih => exact and_congr (same first event initial) (ih (kept first event initial))

/-- The label at `place` is one of `what`. -/
def Happens (events : List ε) (place : Nat) (what : ε → Prop) : Prop :=
  ∃ event, events[place]? = some event ∧ what event

namespace Happens

variable {place : Nat} {what other : ε → Prop} {event : ε}

theorem lt_length (happens : Happens events place what) : place < events.length := by
  obtain ⟨event, found, _⟩ := happens
  exact (List.getElem?_eq_some_iff.mp found).1

theorem both (first : Happens events place what) (second : Happens events place other) :
    ∃ event, what event ∧ other event := by
  obtain ⟨event, found, this⟩ := first
  obtain ⟨same, again, that⟩ := second
  rw [found] at again
  cases again
  exact ⟨event, this, that⟩

theorem concat_length (events : List ε) (this : what event) : Happens (events ++ [event]) events.length what :=
  ⟨event, List.getElem?_concat_length, this⟩

/-- A longer run has the same labels at the places of the shorter one. -/
theorem concat_iff (event : ε) (inside : place < events.length) :
    Happens (events ++ [event]) place what ↔ Happens events place what := by
  rw [Happens, Happens, List.getElem?_append_left inside]

theorem concat (happens : Happens events place what) (event : ε) : Happens (events ++ [event]) place what :=
  (concat_iff event happens.lt_length).mpr happens

/-- Where it happens in a longer run, it happens in the shorter one or last. -/
theorem of_concat (happens : Happens (events ++ [event]) place what) :
    Happens events place what ∨ what event := by
  by_cases inside : place < events.length
  · exact .inl ((concat_iff event inside).mp happens)
  · have bound := happens.lt_length
    have place_eq : place = events.length := by
      rw [List.length_append, List.length_singleton] at bound
      omega
    subst place
    obtain ⟨_, this, that⟩ := happens.both (concat_length events (rfl : event = event))
    exact .inr (that ▸ this)

/-- Two labels of a run, related as every two in that order are. -/
theorem related {relation : ε → ε → Prop} (ordered : events.Pairwise relation) {earlier after : Nat}
    (before : earlier < after) (first : Happens events earlier what) (second : Happens events after other) :
    ∃ event later, what event ∧ other later ∧ relation event later := by
  obtain ⟨event, found, this⟩ := first
  obtain ⟨later, laterFound, that⟩ := second
  obtain ⟨inside, rfl⟩ := List.getElem?_eq_some_iff.mp found
  obtain ⟨laterInside, rfl⟩ := List.getElem?_eq_some_iff.mp laterFound
  exact ⟨_, _, this, that, List.pairwise_iff_getElem.mp ordered earlier after inside laterInside before⟩

end Happens

end GalaGopher.Data
