import Mathlib.Data.List.Basic
import Mathlib.Data.Option.Basic

namespace GalaGopher.Data

/-! Values that are remembered under the key of the input that began them, and
brought up to date by the later inputs with that key. -/

/-- An input may begin no value; the beginning may also fail. -/
structure Memo (ι κ ν ε : Type) where
  key : ι → κ
  begins : ι → Except ε (Option ν)
  goesOn : ν → ι → ν

namespace Memo

variable {ι κ ν ε : Type} [DecidableEq κ]

def find (key : κ) (held : List (κ × ν)) : Option ν := (held.find? fun entry => entry.1 = key).map Prod.snd

def replace (key : κ) (value : ν) (held : List (κ × ν)) : List (κ × ν) :=
  held.map fun entry => if entry.1 = key then (key, value) else entry

variable (memo : Memo ι κ ν ε)

/-- The value of an input, new or brought up to date. -/
def turn (held : List (κ × ν)) (input : ι) : Except ε (List (κ × ν) × Option ν) :=
  match find (memo.key input) held with
  | some value => .ok (replace (memo.key input) (memo.goesOn value input) held, some (memo.goesOn value input))
  | none => (memo.begins input).map fun
      | none => (held, none)
      | some value => (held ++ [(memo.key input, value)], some value)

def pass (held : List (κ × ν)) : List ι → Except ε (List (κ × ν) × List (Option ν))
  | [] => .ok (held, [])
  | input :: rest => do
      let (held, value) ← memo.turn held input
      let (held, values) ← pass held rest
      return (held, value :: values)

omit [DecidableEq κ] in
/-- What a value becomes by an input of its key. -/
def evolve : Option ν → ι → Except ε (Option ν)
  | none, input => memo.begins input
  | some value, input => .ok (some (memo.goesOn value input))

/-- The value under a key after inputs, most of which have other keys. -/
def value (inputs : List ι) (key : κ) : Except ε (Option ν) :=
  (inputs.filter fun input => memo.key input = key).foldlM memo.evolve none

def values (earlier : List ι) : List ι → Except ε (List (Option ν))
  | [] => .ok []
  | input :: rest => do
      let value ← memo.value (earlier ++ [input]) (memo.key input)
      let values ← values (earlier ++ [input]) rest
      return value :: values

/-- What is held is what the inputs tell. -/
def Holds (held : List (κ × ν)) (inputs : List ι) : Prop := ∀ key, memo.value inputs key = .ok (find key held)

variable {memo} {held after : List (κ × ν)} {inputs : List ι} {last : Option ν}

theorem find_append (held : List (κ × ν)) (key other : κ) (value : ν) :
    find other (held ++ [(key, value)]) = (find other held).or (if key = other then some value else none) := by
  rw [find, find, List.find?_append, Option.map_or]
  congr 1
  by_cases same : key = other
  · simp [same]
  · simp [same]

theorem find_replace (held : List (κ × ν)) (key other : κ) (value : ν) :
    find other (replace key value held) = if key = other then (find other held).map fun _ => value else find other held := by
  have search : ((fun entry : κ × ν => decide (entry.1 = other)) ∘ fun entry =>
      if entry.1 = key then (key, value) else entry) = fun entry => decide (entry.1 = other) := by
    funext entry
    simp only [Function.comp_apply]
    split
    · rename_i same
      rw [same]
    · rfl
  rw [find, replace, List.find?_map, search, find]
  by_cases same : key = other
  · subst other
    rw [if_pos rfl]
    cases found : held.find? fun entry => entry.1 = key with
    | none => rfl
    | some entry =>
        have named : entry.1 = key := by simpa using List.find?_some found
        simp only [Option.map_some, if_pos named]
  · rw [if_neg same]
    cases found : held.find? fun entry => entry.1 = other with
    | none => rfl
    | some entry =>
        have named : entry.1 = other := by simpa using List.find?_some found
        have different : entry.1 ≠ key := fun equal => same (equal.symm.trans named)
        simp only [Option.map_some, if_neg different]

theorem value_concat (inputs : List ι) (input : ι) (key : κ) :
    memo.value (inputs ++ [input]) key =
      if memo.key input = key then memo.value inputs key >>= (memo.evolve · input) else memo.value inputs key := by
  rw [value, value, List.filter_append]
  by_cases same : memo.key input = key
  · rw [if_pos same, List.filter_cons_of_pos (by simpa using same), List.filter_nil, List.foldlM_append]
    simp
  · rw [if_neg same, List.filter_cons_of_neg (by simpa using same), List.filter_nil, List.append_nil]

/-- A turn gives the value that the inputs tell, and fails where they do. -/
theorem Holds.turn_value (holds : memo.Holds held inputs) (input : ι) :
    (memo.turn held input).map Prod.snd = memo.value (inputs ++ [input]) (memo.key input) := by
  rw [value_concat, if_pos rfl, holds, turn]
  cases found : find (memo.key input) held with
  | some value => rfl
  | none =>
      change _ = memo.begins input
      cases memo.begins input with
      | error fault => rfl
      | ok first => cases first <;> rfl

theorem Holds.turn {input : ι} (holds : memo.Holds held inputs) (turned : memo.turn held input = .ok (after, last)) :
    memo.Holds after (inputs ++ [input]) := by
  have told := holds (memo.key input)
  intro other
  rw [value_concat]
  rw [Memo.turn] at turned
  cases found : find (memo.key input) held with
  | some value =>
      rw [found] at turned told
      cases turned
      rw [find_replace]
      by_cases same : memo.key input = other
      · subst other
        rw [if_pos rfl, if_pos rfl, told, found]
        rfl
      · rw [if_neg same, if_neg same, holds other]
  | none =>
      rw [found] at turned told
      cases begun : memo.begins input with
      | error fault =>
          rw [begun] at turned
          cases turned
      | ok first =>
          rw [begun] at turned
          cases first with
          | none =>
              cases turned
              by_cases same : memo.key input = other
              · subst other
                rw [if_pos rfl, told, found]
                exact begun
              · rw [if_neg same, holds other]
          | some value =>
              cases turned
              rw [find_append]
              by_cases same : memo.key input = other
              · subst other
                rw [if_pos rfl, if_pos rfl, told, found]
                exact begun
              · rw [if_neg same, if_neg same, holds other, Option.or_none]

theorem pass_cons (held : List (κ × ν)) (input : ι) (rest : List ι) :
    memo.pass held (input :: rest) = memo.turn held input >>= fun first =>
      (memo.pass first.1 rest).map fun later => (later.1, first.2 :: later.2) := rfl

/-- A pass over inputs gives, one by one, what the inputs so far tell. -/
theorem Holds.pass_values (holds : memo.Holds held inputs) (more : List ι) :
    (memo.pass held more).map Prod.snd = memo.values inputs more := by
  induction more generalizing held inputs with
  | nil => rfl
  | cons input rest ih =>
      rw [values, ← holds.turn_value input, pass_cons]
      cases turned : memo.turn held input with
      | error fault => rfl
      | ok first =>
          have later := ih (holds.turn turned)
          change _ = memo.values (inputs ++ [input]) rest >>= fun values => .ok (first.2 :: values)
          rw [← later]
          change ((memo.pass first.1 rest).map _).map _ = _
          cases memo.pass first.1 rest <;> rfl

theorem Holds.pass {more : List ι} {told : List (Option ν)} (holds : memo.Holds held inputs)
    (passed : memo.pass held more = .ok (after, told)) : memo.Holds after (inputs ++ more) := by
  induction more generalizing held inputs told with
  | nil =>
      cases passed
      rw [List.append_nil]
      exact holds
  | cons input rest ih =>
      rw [pass_cons] at passed
      cases turned : memo.turn held input with
      | error fault =>
          rw [turned] at passed
          cases passed
      | ok first =>
          rw [turned] at passed
          change (memo.pass first.1 rest).map _ = _ at passed
          cases later : memo.pass first.1 rest with
          | error fault =>
              rw [later] at passed
              cases passed
          | ok result =>
              rw [later] at passed
              cases passed
              rw [List.append_cons]
              exact ih (holds.turn turned) later

theorem nil_holds : memo.Holds [] [] := fun _ => rfl

end Memo

end GalaGopher.Data
