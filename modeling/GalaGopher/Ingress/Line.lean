import GalaGopher.Imdb.Insertion
import Mathlib.Data.List.TakeWhile

namespace GalaGopher.Ingress

open GalaGopher.Text GalaGopher.Data GalaGopher.Imdb

/-- Split a line at its second bar. -/
def getTableNameAndContent (buf : Bytes) (size : Nat) : Option (Bytes × Bytes) :=
  match buf with
  | [] => none
  | first :: p1 =>
      if first ≠ bar then none
      else
        let name := p1.takeWhile (· ≠ bar)
        let content := p1.dropWhile (· ≠ bar)
        if content = [] then none
        else if name = [] then none
        else if name.length ≥ size then none
        else some (name, content)

variable {name content rest tail : Bytes} {values : List Bytes} {size : Nat}

theorem getTableNameAndContent_named (nonempty : name ≠ []) (free : bar ∉ name) (short : name.length < size) :
    getTableNameAndContent (bar :: (name ++ bar :: rest)) size = some (name, bar :: rest) := by
  have stops : ∀ byte ∈ name, decide (byte ≠ bar) = true := by
    intro byte member
    apply decide_eq_true
    intro same
    subst same
    exact free member
  have front : (name ++ bar :: rest).takeWhile (· ≠ bar) = name := by
    rw [List.takeWhile_append_of_pos stops]
    simp
  have back : (name ++ bar :: rest).dropWhile (· ≠ bar) = bar :: rest := by
    rw [List.dropWhile_append_of_pos stops]
    simp
  simp only [getTableNameAndContent, front, back]
  rw [if_neg (by simp), if_neg (by simp), if_neg nonempty, if_neg (by omega)]

example : getTableNameAndContent (ascii "|link|eth0|7|") 32 = some (ascii "link", ascii "|eth0|7|") := rfl

theorem getTableNameAndContent_some {line : Bytes} (split : getTableNameAndContent line size = some (name, content)) :
    name ≠ [] ∧ bar ∉ name := by
  cases line with
  | nil => contradiction
  | cons first p1 =>
      simp only [getTableNameAndContent] at split
      split at split
      · contradiction
      · split at split
        · contradiction
        · split at split
          · contradiction
          · rename_i nonempty
            split at split
            · contradiction
            · simp only [Option.some.injEq, Prod.mk.injEq] at split
              obtain ⟨rfl, -⟩ := split
              refine ⟨nonempty, fun member => ?_⟩
              simpa using List.mem_takeWhile_imp member

/-- The values of a line, each closed by a bar. -/
def fieldsText (values : List Bytes) (tail : Bytes) : Bytes :=
  values.foldr (fun value rest => value ++ bar :: rest) tail

/-- The line a probe writes for the values of one record. -/
def probeLine (name : Bytes) (values : List Bytes) (terminated : Bool) : Bytes :=
  bar :: (name ++ bar :: fieldsText values (if terminated then [newline] else []))

theorem getTableNameAndContent_probeLine (nonempty : name ≠ []) (free : bar ∉ name) (short : name.length < size) :
    getTableNameAndContent (probeLine name values true) size = some (name, bar :: fieldsText values [newline]) :=
  getTableNameAndContent_named nonempty free short

theorem splitOn_fieldsText (free : ∀ value ∈ values, bar ∉ value) (tailFree : bar ∉ tail) :
    (fieldsText values tail).splitOn bar = values ++ [tail] := by
  induction values with
  | nil => exact List.splitOn_eq_singleton tailFree
  | cons value others ih =>
      have later := ih fun other member => free other (by simp [member])
      rw [fieldsText, List.foldr_cons, List.splitOn_append_cons_self_of_not_mem (free value (by simp)),
        ← fieldsText, later]
      rfl

theorem splitOn_bar_cons (rest : Bytes) : (bar :: rest).splitOn bar = [] :: rest.splitOn bar := by
  have absent : bar ∉ ([] : Bytes) := by simp
  exact List.splitOn_append_cons_self_of_not_mem absent rest

end GalaGopher.Ingress
