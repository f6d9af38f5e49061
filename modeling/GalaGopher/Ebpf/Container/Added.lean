import GalaGopher.Ebpf.Container.Own

namespace GalaGopher.Ebpf.Container

open Data Text

variable {answers : Answers} {results : Results} {table front rest : List ContainerInfo} {p q : ContainerInfo}
  {place turns : Nat}

theorem addContainers_stopped (stopped : p.status ≠ .running) (turns : Nat) : addContainers turns (p :: rest) = [] := by
  induction turns with
  | zero => rfl
  | succ turns ih => rw [addContainers, if_neg stopped, ih]

theorem addContainers_eq (room : table.length ≤ turns) :
    addContainers turns table = (table.takeWhile fun p => p.status = .running).map ContainerInfo.item := by
  induction table generalizing turns with
  | nil => cases turns <;> rfl
  | cons p rest ih =>
      by_cases running : p.status = .running
      · obtain ⟨turns, rfl⟩ := Nat.exists_eq_succ_of_ne_zero (Nat.ne_of_gt (Nat.zero_lt_of_lt room))
        rw [addContainers, if_pos running, ih (Nat.le_of_succ_le_succ room),
          List.takeWhile_cons_of_pos (by simpa using running),
          List.map_cons]
      · rw [addContainers_stopped running, List.takeWhile_cons_of_neg (by simpa using running), List.map_nil]

theorem takeWhile_eq_take {α : Type} {test : α → Bool} {entries : List α} {count : Nat}
    (before : ∀ place < count, ∀ entry, entries[place]? = some entry → test entry)
    (stop : ∀ entry, entries[count]? = some entry → ¬test entry) : entries.takeWhile test = entries.take count := by
  induction count generalizing entries with
  | zero =>
      cases entries with
      | nil => rfl
      | cons entry rest => rw [List.takeWhile_cons_of_neg (stop entry rfl), List.take_zero]
  | succ count ih =>
      cases entries with
      | nil => rfl
      | cons entry rest =>
          rw [List.takeWhile_cons_of_pos (before 0 (Nat.succ_pos _) entry rfl), List.take_succ_cons,
            ih (fun place less => before (place + 1) (Nat.succ_lt_succ less)) stop]

/-- The containers in front of the first that does not run. -/
theorem addContainers_take {count : Nat}
    (running : ∀ place < count, ∀ p, table[place]? = some p → p.status = .running)
    (stopped : ∀ p, table[count]? = some p → p.status ≠ .running) :
    addContainers table.length table = (table.take count).map ContainerInfo.item := by
  rw [addContainers_eq (Nat.le_refl _)]
  refine congrArg (List.map _) (takeWhile_eq_take (fun place less p found => ?_) fun p found => ?_)
  · simpa using running place less p found
  · simpa using stopped p found

def runningAmong (answers : Answers) (entries : List (ContainerInfo × Nat)) : List (ContainerInfo × Nat) :=
  entries.filter fun entry => Running (answers entry.2) entry.1

theorem runningItems_append (running : ∀ (turn : Nat) p, front[turn]? = some p → Running (answers turn) p) :
    runningItems answers (front ++ rest) =
      (front.zipIdx ++ runningAmong answers (rest.zipIdx front.length)).map fun entry =>
        ownItem (answers entry.2) entry.1 := by
  have all : runningAmong answers front.zipIdx = front.zipIdx := by
    refine List.filter_eq_self.mpr fun entry member => ?_
    simpa using running entry.2 entry.1 (List.mem_zipIdx_iff_getElem?.mp member)
  have split : runningAmong answers (front ++ rest).zipIdx =
      runningAmong answers front.zipIdx ++ runningAmong answers (rest.zipIdx front.length) := by
    rw [runningAmong, List.zipIdx_append, List.filter_append, Nat.zero_add]
    rfl
  rw [runningItems, ← runningAmong, split, all]

theorem runningAmong_eq_nil_iff {base : Nat} :
    runningAmong answers (rest.zipIdx base) = [] ↔
      ∀ (turn : Nat) p, rest[turn]? = some p → ¬Running (answers (base + turn)) p := by
  rw [runningAmong, List.filter_eq_nil_iff]
  constructor
  · intro none turn p found running
    exact none (p, base + turn) (List.mk_add_mem_zipIdx_iff_getElem?.mpr found) (by simpa using running)
  · rintro none ⟨p, turn⟩ member running
    obtain ⟨lower, found⟩ := List.mk_mem_zipIdx_iff_le_and_getElem?_sub.mp member
    refine none (turn - base) p found ?_
    rw [Nat.add_sub_cancel' lower]
    simpa using running

theorem attributes_lookup_status (found : (getAttributes answers table)[place]? = some q) :
    ∃ entry, (statusTable answers table)[place]? = some entry ∧ entry.status = q.status :=
  lookup_of_map (map_attributes_status answers table).symm found

theorem length_attributes (answers : Answers) (table : List ContainerInfo) :
    (getAttributes answers table).length = table.length := by
  have same := congrArg List.length (map_attributes_status answers table)
  rw [List.length_map, List.length_map] at same
  rw [same, statusTable, getContainersStatus, passOver, length_pass, idTable, getContainersIds, passOver, length_pass,
    pidTable, getContainersPid, passOver, length_pass]

theorem attributes_running (running : ∀ (turn : Nat) p, front[turn]? = some p → Running (answers turn) p)
    (inside : place < front.length) (found : (getAttributes answers (front ++ rest))[place]? = some q) :
    q.status = .running := by
  obtain ⟨entry, result, same⟩ := attributes_lookup_status found
  obtain ⟨other, there, status⟩ := statusTable_front rest running (List.getElem?_eq_getElem inside)
  cases result.symm.trans there
  rw [← same, status]

theorem attributes_stopped (running : ∀ (turn : Nat) p, front[turn]? = some p → Running (answers turn) p)
    (first : rest.head? = some p) (stopped : ¬Running (answers front.length) p)
    (known : (answers front.length (.status p.abbrContainerId.text)).isSome)
    (found : (getAttributes answers (front ++ rest))[front.length]? = some q) : q.status ≠ .running := by
  obtain ⟨entry, result, same⟩ := attributes_lookup_status found
  obtain ⟨other, there, status⟩ := statusTable_stopped running first stopped known
  cases result.symm.trans there
  rw [← same]
  exact status

theorem added_take (running : ∀ (turn : Nat) p, front[turn]? = some p → Running (answers turn) p)
    (stopped : ∀ p, rest.head? = some p → ¬Running (answers front.length) p ∧
      (answers front.length (.status p.abbrContainerId.text)).isSome) :
    addContainers (getAttributes answers (front ++ rest)).length (getAttributes answers (front ++ rest)) =
      ((getAttributes answers (front ++ rest)).take front.length).map ContainerInfo.item := by
  refine addContainers_take (fun place inside q found => attributes_running running inside found) fun q found => ?_
  obtain ⟨inside, _⟩ := List.getElem?_eq_some_iff.mp found
  rw [length_attributes, List.length_append] at inside
  cases rest with
  | nil => exact absurd inside (Nat.lt_irrefl _)
  | cons p others =>
      obtain ⟨different, known⟩ := stopped p rfl
      exact attributes_stopped running rfl different known found

/-- The containers in front are those to add, where they have their own pid,
full id and cgroup. -/
theorem added_eq (leading : Leading answers front rest)
    (own : ∀ (turn : Nat) p q, front[turn]? = some p → (getAttributes answers (front ++ rest))[turn]? = some q →
      q.item = ownItem (answers turn) p) :
    addContainers (getAttributes answers (front ++ rest)).length (getAttributes answers (front ++ rest)) =
      runningItems answers (front ++ rest) := by
  have stopped : ∀ p, rest.head? = some p → ¬Running (answers front.length) p ∧
      (answers front.length (.status p.abbrContainerId.text)).isSome := by
    intro p first
    refine ⟨leading.others 0 p ?_, leading.known p first⟩
    rwa [← List.head?_eq_getElem?]
  rw [added_take leading.running stopped, runningItems_append leading.running,
    runningAmong_eq_nil_iff.mpr leading.others, List.append_nil]
  refine List.ext_getElem? fun turn => ?_
  rw [List.getElem?_map, List.getElem?_map, List.getElem?_zipIdx, List.getElem?_take]
  by_cases inside : turn < front.length
  · have here := List.getElem?_eq_getElem inside
    have inTable : turn < (getAttributes answers (front ++ rest)).length := by
      rw [length_attributes, List.length_append]
      exact Nat.lt_add_right _ inside
    have there := List.getElem?_eq_getElem inTable
    rw [if_pos inside, here, there, Option.map_some, Option.map_some, Option.map_some, own turn _ _ here there,
      Nat.zero_add]
  · rw [if_neg inside, List.getElem?_eq_none (Nat.le_of_not_lt inside)]
    rfl

/-- As many are added as run only if those that run lead. -/
theorem leading_of_added (fresh : Fresh (front ++ rest))
    (running : ∀ (turn : Nat) p, front[turn]? = some p → Running results p)
    (stopped : ∀ p, rest.head? = some p → ¬Running results p)
    (same : addContainers (getAttributes (fun _ => results) (front ++ rest)).length
      (getAttributes (fun _ => results) (front ++ rest)) = runningItems (fun _ => results) (front ++ rest)) :
    Leading (fun _ => results) front rest := by
  have lengths := congrArg List.length same
  rw [runningItems_append running, List.length_map, List.length_append, List.length_zipIdx] at lengths
  have known : ∀ p, rest.head? = some p → (results (.status p.abbrContainerId.text)).isSome := by
    intro p first
    rw [Option.isSome_iff_ne_none]
    intro unknown
    -- all are added, but the first of the rest does not run
    have all : ∀ place < (front ++ rest).length, ∀ q,
        (getAttributes (fun _ => results) (front ++ rest))[place]? = some q → q.status = .running := by
      intro place _ q found
      obtain ⟨entry, result, status⟩ := attributes_lookup_status found
      rw [← status]
      exact statusTable_unknown fresh running first unknown result
    have beyond : ∀ q, (getAttributes (fun _ => results) (front ++ rest))[(front ++ rest).length]? = some q →
        q.status ≠ .running := by
      intro q found
      rw [List.getElem?_eq_none (Nat.le_of_eq (length_attributes _ _))] at found
      cases found
    rw [addContainers_take all beyond, List.length_map, List.length_take, length_attributes, Nat.min_self,
      List.length_append, Nat.add_left_cancel_iff] at lengths
    have fewer : (runningAmong (fun _ => results) (rest.zipIdx front.length)).length <
        (rest.zipIdx front.length).length := by
      refine List.length_filter_lt_length_iff_exists.mpr ⟨(p, front.length), ?_, by simpa using stopped p first⟩
      refine List.mk_mem_zipIdx_iff_le_and_getElem?_sub.mpr ⟨Nat.le_refl _, ?_⟩
      rw [Nat.sub_self, ← List.head?_eq_getElem?]
      exact first
    rw [List.length_zipIdx, ← lengths] at fewer
    exact absurd fewer (Nat.lt_irrefl _)
  refine ⟨running, ?_, known⟩
  rw [added_take running fun p first => ⟨stopped p first, known p first⟩, List.length_map, List.length_take,
    length_attributes, List.length_append, Nat.min_eq_left (Nat.le_add_right _ _)] at lengths
  have none : runningAmong (fun _ => results) (rest.zipIdx front.length) = [] := by
    refine List.eq_nil_of_length_eq_zero ?_
    omega
  exact runningAmong_eq_nil_iff.mp none

end GalaGopher.Ebpf.Container
