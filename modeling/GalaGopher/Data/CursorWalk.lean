import Mathlib.Data.List.Basic

namespace GalaGopher.Data

/-! Walks over a table by a loop that counts its turns and moves its cursor
apart from them: a visit that writes moves it on, one that does not leaves it
for the next turn. -/

variable {α β : Type}

/-- The entries from the cursor on, after so many turns from this one on. -/
def walk (visit : Nat → α → Option α) : Nat → Nat → List α → List α
  | 0, _, entries => entries
  | _ + 1, _, [] => []
  | turns + 1, turn, entry :: rest =>
      match visit turn entry with
      | some written => written :: walk visit turns (turn + 1) rest
      | none => walk visit turns (turn + 1) (entry :: rest)

/-- As many turns as there are entries. -/
def pass (visit : Nat → α → Option α) (entries : List α) : List α := walk visit entries.length 0 entries

variable {visit : Nat → α → Option α} {entries rest : List α} {entry written after : α} {place turns turn : Nat}

/-- No visit changes the field. -/
def Keeps (visit : Nat → α → Option α) (field : α → β) : Prop :=
  ∀ turn entry written, visit turn entry = some written → field written = field entry

theorem map_walk {field : α → β} (kept : Keeps visit field) (turns turn : Nat) (entries : List α) :
    (walk visit turns turn entries).map field = entries.map field := by
  induction turns generalizing turn entries with
  | zero => rfl
  | succ turns ih =>
      cases entries with
      | nil => rfl
      | cons entry rest =>
          rw [walk]
          cases visited : visit turn entry with
          | none => exact ih (turn + 1) (entry :: rest)
          | some written =>
              dsimp only
              rw [List.map_cons, List.map_cons, ih, kept turn entry written visited]

theorem map_pass {field : α → β} (kept : Keeps visit field) (entries : List α) :
    (pass visit entries).map field = entries.map field :=
  map_walk kept entries.length 0 entries

theorem length_pass (visit : Nat → α → Option α) (entries : List α) : (pass visit entries).length = entries.length := by
  have kept : Keeps visit fun _ => () := fun _ _ _ _ => rfl
  have same := congrArg List.length (map_walk kept entries.length 0 entries)
  rw [List.length_map, List.length_map] at same
  exact same

theorem exists_pass (visit : Nat → α → Option α) (found : entries[place]? = some entry) :
    ∃ after, (pass visit entries)[place]? = some after := by
  obtain ⟨inside, _⟩ := List.getElem?_eq_some_iff.mp found
  exact ⟨_, List.getElem?_eq_getElem ((length_pass visit entries).symm ▸ inside)⟩

/-- As long as every turn writes, the cursor is where the turn is. -/
theorem walk_inStep
    (before : ∀ earlier < place, ∀ entry, entries[earlier]? = some entry → (visit (turn + earlier) entry).isSome)
    (found : entries[place]? = some entry) (own : visit (turn + place) entry = some written) (room : place < turns) :
    (walk visit turns turn entries)[place]? = some written := by
  induction place generalizing turns turn entries with
  | zero =>
      obtain ⟨turns, rfl⟩ := Nat.exists_eq_succ_of_ne_zero (Nat.ne_of_gt room)
      cases entries with
      | nil => cases found
      | cons first rest =>
          cases found
          rw [walk]
          rw [Nat.add_zero] at own
          rw [own]
          rfl
  | succ place ih =>
      obtain ⟨turns, rfl⟩ := Nat.exists_eq_succ_of_ne_zero (Nat.ne_of_gt (Nat.zero_lt_of_lt room))
      cases entries with
      | nil => cases found
      | cons first rest =>
          obtain ⟨changed, visited⟩ := Option.isSome_iff_exists.mp (before 0 (Nat.succ_pos _) first rfl)
          rw [Nat.add_zero] at visited
          rw [walk, visited]
          refine ih (fun earlier less entry here => ?_) found ?_ (Nat.lt_of_succ_lt_succ room)
          · rw [Nat.add_right_comm, Nat.add_assoc]
            exact before (earlier + 1) (Nat.succ_lt_succ less) entry here
          · rw [Nat.add_right_comm, Nat.add_assoc]
            exact own

theorem pass_inStep (before : ∀ earlier < place, ∀ entry, entries[earlier]? = some entry → (visit earlier entry).isSome)
    (found : entries[place]? = some entry) (own : visit place entry = some written) :
    (pass visit entries)[place]? = some written := by
  obtain ⟨inside, _⟩ := List.getElem?_eq_some_iff.mp found
  refine walk_inStep (fun earlier less entry here => ?_) found ?_ inside
  · rw [Nat.zero_add]
    exact before earlier less entry here
  · rw [Nat.zero_add]
    exact own

/-- Subjects that are all visited in their own turns. -/
theorem pass_subjects (visit : Nat → α → Option α) {σ : Type} {subjects : List σ} (before later : Nat → σ → α)
    (stage : ∀ (turn : Nat) subject, subjects[turn]? = some subject → entries[turn]? = some (before turn subject))
    (visited : ∀ (turn : Nat) subject, subjects[turn]? = some subject →
      visit turn (before turn subject) = some (later turn subject)) :
    ∀ (turn : Nat) subject, subjects[turn]? = some subject → (pass visit entries)[turn]? = some (later turn subject) := by
  intro turn subject here
  obtain ⟨inside, _⟩ := List.getElem?_eq_some_iff.mp here
  refine pass_inStep (fun earlier less entry found => ?_) (stage turn subject here) (visited turn subject here)
  have there := List.getElem?_eq_getElem (Nat.lt_trans less inside)
  cases found.symm.trans (stage earlier _ there)
  rw [visited earlier _ there]
  rfl

section Repeated

variable {again : α → Option α}

/-- Nothing holds the cursor back before the place. -/
def Reaches (again : α → Option α) (entries : List α) (place : Nat) : Prop :=
  ∀ earlier < place, ∀ entry, entries[earlier]? = some entry → (again entry).isSome

theorem reaches_first (entries : List α) : Reaches again entries 0 :=
  fun earlier less => absurd less (Nat.not_lt_zero earlier)

theorem reaches_succ (visited : again entry = some written) :
    Reaches again (entry :: rest) (place + 1) ↔ Reaches again rest place := by
  constructor
  · intro reaches earlier less
    exact reaches (earlier + 1) (Nat.succ_lt_succ less)
  · intro reaches earlier less other here
    cases earlier with
    | zero =>
        cases here
        rw [visited]
        rfl
    | succ earlier => exact reaches earlier (Nat.lt_of_succ_lt_succ less) other here

theorem not_reaches_succ (refused : again entry = none) : ¬Reaches again (entry :: rest) (place + 1) := by
  intro reaches
  have moved := reaches 0 (Nat.succ_pos place) entry rfl
  rw [refused] at moved
  cases moved

theorem walk_stuck (refused : again entry = none) (turns turn : Nat) :
    walk (fun _ => again) turns turn (entry :: rest) = entry :: rest := by
  induction turns generalizing turn with
  | zero => rfl
  | succ turns ih =>
      rw [walk, refused]
      exact ih (turn + 1)

theorem walk_reached (found : entries[place]? = some entry) (room : entries.length ≤ turns)
    (reaches : Reaches again entries place) :
    (walk (fun _ => again) turns turn entries)[place]? = some ((again entry).getD entry) := by
  induction entries generalizing place turns turn with
  | nil => cases found
  | cons first rest ih =>
      obtain ⟨turns, rfl⟩ := Nat.exists_eq_succ_of_ne_zero (Nat.ne_of_gt (Nat.zero_lt_of_lt room))
      cases visited : again first with
      | none =>
          cases place with
          | zero =>
              cases found
              rw [walk_stuck visited, visited]
              rfl
          | succ place => exact absurd reaches (not_reaches_succ visited)
      | some written =>
          rw [walk, visited]
          cases place with
          | zero =>
              cases found
              rw [visited]
              rfl
          | succ place => exact ih found (Nat.le_of_succ_le_succ room) ((reaches_succ visited).mp reaches)

theorem walk_unreached (found : entries[place]? = some entry) (blocked : ¬Reaches again entries place) :
    (walk (fun _ => again) turns turn entries)[place]? = some entry := by
  induction entries generalizing place turns turn with
  | nil => cases found
  | cons first rest ih =>
      cases turns with
      | zero => exact found
      | succ turns =>
          cases visited : again first with
          | none =>
              rw [walk_stuck visited]
              exact found
          | some written =>
              rw [walk, visited]
              cases place with
              | zero => exact absurd (reaches_first _) blocked
              | succ place => exact ih found fun reaches => blocked ((reaches_succ visited).mpr reaches)

theorem pass_cases (found : entries[place]? = some entry)
    (result : (pass (fun _ => again) entries)[place]? = some after) :
    (Reaches again entries place ∧ after = (again entry).getD entry) ∨ (¬Reaches again entries place ∧ after = entry) := by
  rw [pass] at result
  by_cases reaches : Reaches again entries place
  · exact .inl ⟨reaches, Option.some.inj (result.symm.trans (walk_reached found (Nat.le_refl _) reaches))⟩
  · exact .inr ⟨reaches, Option.some.inj (result.symm.trans (walk_unreached found reaches))⟩

/-- A field has what the entry's own visit writes to it if the cursor comes
there, and else only where the visit writes what it has. -/
theorem field_pass_iff (field : α → β) (found : entries[place]? = some entry)
    (result : (pass (fun _ => again) entries)[place]? = some after) :
    field after = field ((again entry).getD entry) ↔
      Reaches again entries place ∨ field ((again entry).getD entry) = field entry := by
  rcases pass_cases found result with ⟨reaches, rfl⟩ | ⟨blocked, rfl⟩
  · exact ⟨fun _ => .inl reaches, fun _ => rfl⟩
  · rw [or_iff_right blocked]
    exact eq_comm

-- The first entries of a table, each with the subject whose attribute it is to
-- have.

variable {σ : Type} {subjects : List σ} {subject : σ}

theorem reaches_iff {Answered : σ → Prop} (stage : ∀ (place : Nat) subject, subjects[place]? = some subject →
    ∃ entry, entries[place]? = some entry ∧ ((again entry).isSome ↔ Answered subject))
    (inside : place < subjects.length) :
    Reaches again entries place ↔ ∀ earlier < place, ∀ subject, subjects[earlier]? = some subject → Answered subject := by
  constructor
  · intro reaches earlier less subject here
    obtain ⟨entry, found, moves⟩ := stage earlier subject here
    exact moves.mp (reaches earlier less entry found)
  · intro every earlier less entry found
    have here := List.getElem?_eq_getElem (Nat.lt_trans less inside)
    obtain ⟨same, foundSame, moves⟩ := stage earlier _ here
    cases found.symm.trans foundSame
    exact moves.mpr (every earlier less _ here)

/-- Where a visit without an answer stays, an entry has its own attribute if all
before it were answered, or if it has nothing to tell. -/
theorem column_iff (again : α → Option α) {Answered : σ → Prop} (field : α → β) (own : σ → β) (initial : β)
    (stage : ∀ (place : Nat) subject, subjects[place]? = some subject → ∃ entry, entries[place]? = some entry ∧
      ((again entry).isSome ↔ Answered subject) ∧ field entry = initial ∧
      field ((again entry).getD entry) = own subject) :
    (∀ (place : Nat) subject after, subjects[place]? = some subject → (pass (fun _ => again) entries)[place]? = some after →
        field after = own subject) ↔
      subjects.Pairwise fun earlier later => own later ≠ initial → Answered earlier := by
  have moves : ∀ (place : Nat) subject, subjects[place]? = some subject →
      ∃ entry, entries[place]? = some entry ∧ ((again entry).isSome ↔ Answered subject) := by
    intro place subject here
    obtain ⟨entry, found, same, _⟩ := stage place subject here
    exact ⟨entry, found, same⟩
  rw [List.pairwise_iff_getElem]
  constructor
  · intro kept earlier later inEarlier inLater less tells
    have here := List.getElem?_eq_getElem inLater
    obtain ⟨entry, found, _, atFirst, stored⟩ := stage later _ here
    obtain ⟨after, result⟩ := exists_pass (fun _ => again) found
    have same := kept later _ after here result
    rw [← stored, field_pass_iff field found result, stored, atFirst] at same
    have reaches := (reaches_iff moves inLater).mp (same.resolve_right tells)
    exact reaches earlier less _ (List.getElem?_eq_getElem inEarlier)
  · intro unbroken place subject after here result
    obtain ⟨inside, value⟩ := List.getElem?_eq_some_iff.mp here
    obtain ⟨entry, found, _, atFirst, stored⟩ := stage place subject here
    rw [← stored, field_pass_iff field found result, stored, atFirst, reaches_iff moves inside]
    by_cases tells : own subject = initial
    · exact .inr tells
    · refine .inl fun earlier less other there => ?_
      obtain ⟨inEarlier, otherValue⟩ := List.getElem?_eq_some_iff.mp there
      rw [← otherValue]
      exact unbroken earlier place inEarlier inside less (value ▸ tells)

/-- Where every visit moves on, each entry is on its own. -/
theorem column_all_iff (again : α → Option α) {Answered : σ → Prop} (field : α → β) (own : σ → β)
    (stage : ∀ (place : Nat) subject, subjects[place]? = some subject → ∃ entry written, entries[place]? = some entry ∧
      again entry = some written ∧ (field written = own subject ↔ Answered subject)) :
    (∀ (place : Nat) subject after, subjects[place]? = some subject → (pass (fun _ => again) entries)[place]? = some after →
        field after = own subject) ↔
      ∀ subject ∈ subjects, Answered subject := by
  have result : ∀ (place : Nat) subject after, subjects[place]? = some subject →
      (pass (fun _ => again) entries)[place]? = some after → (field after = own subject ↔ Answered subject) := by
    intro place subject after here result
    obtain ⟨inside, _⟩ := List.getElem?_eq_some_iff.mp here
    obtain ⟨entry, written, found, visited, same⟩ := stage place subject here
    have reaches : Reaches again entries place := by
      intro earlier less other there
      obtain ⟨first, changed, foundFirst, moved, _⟩ := stage earlier _ (List.getElem?_eq_getElem (Nat.lt_trans less inside))
      cases there.symm.trans foundFirst
      rw [moved]
      rfl
    rw [pass, walk_reached found (Nat.le_refl _) reaches, visited] at result
    cases result
    exact same
  constructor
  · intro kept subject member
    obtain ⟨place, here⟩ := List.getElem?_of_mem member
    obtain ⟨entry, _, found, _⟩ := stage place subject here
    obtain ⟨after, passed⟩ := exists_pass (fun _ => again) found
    exact (result place subject after here passed).mp (kept place subject after here passed)
  · intro every place subject after here passed
    exact (result place subject after here passed).mpr (every subject (List.mem_of_getElem? here))

end Repeated

end GalaGopher.Data
