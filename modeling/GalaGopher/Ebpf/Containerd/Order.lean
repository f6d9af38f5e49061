import GalaGopher.Ebpf.Containerd
import Mathlib.Data.List.Induction

namespace GalaGopher.Ebpf.Containerd

open Data Text

def itemOf (evt : ContainerEvt) : ContainerItem where
  containerId := evt.containerId
  taskPid := evt.taskPid
  tgid := evt.tgid
  comm := evt.comm.take (taskCommLen - 1)

abbrev Distinct (table : List ContainerItem) : Prop := KeyedList.Distinct ContainerItem.containerId table

variable {evt : ContainerEvt} {table : List ContainerItem} {containerId other : Bytes}

theorem addContainer_eq (evt : ContainerEvt) (table : List ContainerItem) :
    addContainer evt.containerId table = table ++ [{ containerId := evt.containerId }] := by
  rw [addContainer, List.take_of_length_le evt.short]

theorem find_concat (table : List ContainerItem) (item : ContainerItem) :
    findContainer containerId (table ++ [item]) =
      (findContainer containerId table).or (if item.containerId = containerId then some item else none) := by
  rw [findContainer, KeyedList.find?, List.find?_append]
  congr 1
  simp only [List.find?_singleton, decide_eq_true_eq]

theorem find_setValue (evt : ContainerEvt) (table : List ContainerItem) :
    findContainer containerId (setValue evt table) =
      if containerId = evt.containerId then (findContainer containerId table).map fun _ => itemOf evt
      else findContainer containerId table := by
  induction table with
  | nil => simp [findContainer, KeyedList.find?, setValue]
  | cons item rest ih =>
      simp only [findContainer, KeyedList.find?, setValue, List.map_cons, List.find?_cons] at ih ⊢
      by_cases own : item.containerId = evt.containerId
      · by_cases found : item.containerId = containerId
        · simp [own, itemOf, ← found]
        · simp only [own, if_true] at found ⊢
          simpa [found] using ih
      · by_cases found : item.containerId = containerId
        · have apart : ¬ containerId = evt.containerId := found ▸ own
          simp [found, apart]
        · simpa [own, found] using ih

theorem find_remove (distinct : Distinct table) (other : Bytes) :
    findContainer containerId (KeyedList.remove ContainerItem.containerId other table) =
      if containerId = other then none else findContainer containerId table := by
  rw [KeyedList.remove_eq_filter distinct, findContainer, findContainer, KeyedList.find?, KeyedList.find?,
    List.find?_filter]
  split
  case isTrue same =>
      rw [List.find?_eq_none]
      intro item _
      simp [same]
  case isFalse apart =>
      congr 1
      funext item
      by_cases found : item.containerId = containerId
      · simp [found, apart]
      · simp [found]

theorem setValue_ids (evt : ContainerEvt) (table : List ContainerItem) :
    (setValue evt table).map ContainerItem.containerId = table.map ContainerItem.containerId := by
  rw [setValue, List.map_map]
  apply List.map_congr_left
  intro item _
  simp only [Function.comp_apply]
  split <;> rfl

theorem procContainerEvt_distinct (allocated : Bool) (distinct : Distinct table) (evt : ContainerEvt) :
    Distinct (procContainerEvt allocated table evt) := by
  unfold procContainerEvt
  cases found : findContainer evt.containerId table with
  | none =>
      have absent := KeyedList.find?_eq_none_iff.mp found
      dsimp only
      split
      case isFalse => exact distinct
      case isTrue =>
          split
          case isFalse => exact distinct
          case isTrue =>
              rw [Distinct, KeyedList.Distinct, setValue_ids, addContainer_eq, List.map_append, List.nodup_append]
              refine ⟨distinct, by simp, ?_⟩
              rintro left member right singleton rfl
              cases List.mem_singleton.mp singleton
              exact absent member
  | some item =>
      dsimp only
      split
      case isTrue =>
          rw [Distinct, KeyedList.Distinct, setValue_ids]
          exact distinct
      case isFalse =>
          rw [deleteContainer, found]
          exact distinct.sublist (KeyedList.remove_sublist ..)

/-- What an event writes in the place of a container. -/
def writes (containerId : Bytes) (evt : ContainerEvt) : Option (Option ContainerItem) :=
  if evt.containerId = containerId then some (if evt.crtOrDel = 0 then some (itemOf evt) else none) else none

theorem procContainerEvt_find (distinct : Distinct table) (evt : ContainerEvt) :
    findContainer containerId (procContainerEvt true table evt) =
      (writes containerId evt).getD (findContainer containerId table) := by
  unfold procContainerEvt writes
  by_cases same : evt.containerId = containerId
  · subst same
    cases found : findContainer evt.containerId table with
    | none =>
        by_cases start : evt.crtOrDel = 0
        · simp [start, find_setValue, addContainer_eq, find_concat, found]
        · simp [start, found]
    | some item =>
        by_cases start : evt.crtOrDel = 0
        · simp [start, find_setValue, found]
        · simp [start, deleteContainer, find_remove distinct, found]
  · have apart : ¬ containerId = evt.containerId := Ne.symm same
    cases found : findContainer evt.containerId table with
    | none =>
        by_cases start : evt.crtOrDel = 0
        · simp [start, find_setValue, addContainer_eq, find_concat, same, apart]
        · simp [start, same]
    | some item =>
        by_cases start : evt.crtOrDel = 0
        · simp [start, find_setValue, same, apart]
        · simp [start, deleteContainer, find_remove distinct, found, same, apart]

/-- What is left of a container is what its last event wrote. -/
theorem handled_find (events : List ContainerEvt) (containerId : Bytes) :
    findContainer containerId (events.foldl (procContainerEvt true) []) =
      (lastWrite (writes containerId) events).getD none :=
  @lastWrite_foldl_of _ _ _ (procContainerEvt true) (findContainer containerId) (writes containerId) Distinct
    (fun _ evt distinct => procContainerEvt_distinct true distinct evt)
    (fun _ evt distinct => procContainerEvt_find distinct evt) events [] List.nodup_nil

theorem handled_distinct (events : List ContainerEvt) : Distinct (events.foldl (procContainerEvt true) []) := by
  induction events using List.reverseRecOn with
  | nil => exact List.nodup_nil
  | append_singleton events evt ih =>
      rw [List.foldl_append]
      exact procContainerEvt_distinct true ih evt

section Runs

variable {Cpu : Type}

/-- A container is started once at most. -/
def StartedOnce (events : List ContainerEvt) : Prop :=
  events.Pairwise fun earlier later =>
    earlier.crtOrDel = 0 → later.crtOrDel = 0 → earlier.containerId ≠ later.containerId

/-- No `malloc` fails. -/
def Allocates : Move Cpu → Prop
  | .poll _ allocated => allocated
  | _ => True

/-- The table holds the containers started and not deleted, each once and with
its own values. -/
structure Follows (table : List ContainerItem) (events : List ContainerEvt) : Prop where
  distinct : Distinct table
  mem_iff : ∀ item, item ∈ table ↔ ∃ start ∈ events, start.crtOrDel = 0 ∧ item = itemOf start ∧
    ∀ evt ∈ events, evt.containerId = start.containerId → evt.crtOrDel = 0

/-- The event of a container that was handled last. -/
def lastHandled (system : System Cpu) (containerId : Bytes) : Option ContainerEvt :=
  (system.handled.filter fun evt => evt.containerId = containerId).getLast?

/-- No deleted container has its start handled last. -/
def DeletedLast (system : System Cpu) (events : List ContainerEvt) : Prop :=
  ∀ evt ∈ events, evt.crtOrDel ≠ 0 → ∀ last, lastHandled system evt.containerId = some last → last.crtOrDel ≠ 0

theorem StartedOnce.same {events : List ContainerEvt} (once : StartedOnce events) {first second : ContainerEvt}
    (firstIn : first ∈ events) (secondIn : second ∈ events) (firstStart : first.crtOrDel = 0)
    (secondStart : second.crtOrDel = 0) (sameId : first.containerId = second.containerId) : first = second := by
  by_contra different
  have : Std.Symm fun earlier later : ContainerEvt =>
      earlier.crtOrDel = 0 → later.crtOrDel = 0 → earlier.containerId ≠ later.containerId :=
    ⟨fun _ _ apart laterStart earlierStart => (apart earlierStart laterStart).symm⟩
  exact once.forall firstIn secondIn different firstStart secondStart sameId

theorem mem_iff_find (distinct : Distinct table) (item : ContainerItem) :
    item ∈ table ↔ findContainer item.containerId table = some item := by
  refine ⟨fun member => ?_, fun found => (KeyedList.find?_some found).1⟩
  cases found : findContainer item.containerId table with
  | none => exact absurd (List.mem_map_of_mem member) (KeyedList.find?_eq_none_iff.mp found)
  | some other =>
      have there := KeyedList.find?_some found
      rw [List.inj_on_of_nodup_map distinct there.1 member there.2]

theorem lastWrite_writes (events : List ContainerEvt) (containerId : Bytes) :
    lastWrite (writes containerId) events =
      ((events.filter fun evt => evt.containerId = containerId).getLast?).map fun evt =>
        if evt.crtOrDel = 0 then some (itemOf evt) else none := by
  have written : events.filterMap (writes containerId) =
      (events.filter fun evt => evt.containerId = containerId).map fun evt =>
        if evt.crtOrDel = 0 then some (itemOf evt) else none := by
    induction events with
    | nil => rfl
    | cons evt rest ih =>
        by_cases own : evt.containerId = containerId
        · simp [writes, own, ← ih]
        · simp [writes, own, ← ih]
  rw [lastWrite, written, List.getLast?_map]

/-- An item is what the start handled last for its container left. -/
theorem mem_handled_iff (system : System Cpu) (item : ContainerItem) :
    item ∈ system.handled.foldl (procContainerEvt true) [] ↔
      ∃ last, lastHandled system item.containerId = some last ∧ last.crtOrDel = 0 ∧ item = itemOf last := by
  rw [mem_iff_find (handled_distinct _), handled_find, lastWrite_writes]
  change ((lastHandled system item.containerId).map _).getD none = some item ↔ _
  cases lastHandled system item.containerId with
  | none => simp
  | some last =>
      by_cases start : last.crtOrDel = 0
      · simp [start, eq_comm]
      · simp [start]

theorem lastHandled_mem {system : System Cpu} {last : ContainerEvt}
    (found : lastHandled system containerId = some last) :
    last ∈ system.handled ∧ last.containerId = containerId := by
  have member := List.mem_of_getLast? found
  simpa using List.mem_filter.mp member

theorem handled_follows_iff {system : System Cpu} {events : List ContainerEvt} (once : StartedOnce events)
    (handled : ∀ evt, evt ∈ system.handled ↔ evt ∈ events) :
    Follows (system.handled.foldl (procContainerEvt true) []) events ↔ DeletedLast system events := by
  refine ⟨fun follows evt member deleted last found start => ?_, fun deletedLast => ⟨handled_distinct _, fun item => ?_⟩⟩
  · have own := (lastHandled_mem found).2
    rw [← own] at found
    have kept := (mem_handled_iff system (itemOf last)).mpr ⟨last, found, start, rfl⟩
    obtain ⟨other, _, _, same, starts⟩ := (follows.mem_iff (itemOf last)).mp kept
    have ids : last.containerId = other.containerId := congrArg ContainerItem.containerId same
    exact deleted (starts evt member (own.symm.trans ids))
  · rw [mem_handled_iff]
    refine ⟨?_, ?_⟩
    · rintro ⟨last, found, start, rfl⟩
      have there := lastHandled_mem found
      refine ⟨last, (handled last).mp there.1, start, rfl, fun evt member same => ?_⟩
      by_contra deleted
      exact deletedLast evt member deleted last (by rw [same]; exact found) start
    · rintro ⟨start, member, starts, rfl, all⟩
      have among : start ∈ system.handled.filter fun evt => evt.containerId = start.containerId :=
        List.mem_filter.mpr ⟨(handled start).mpr member, by simp⟩
      obtain ⟨last, found⟩ := Option.isSome_iff_exists.mp (List.getLast?_isSome.mpr (List.ne_nil_of_mem among))
      have there := lastHandled_mem found
      have inside := (handled last).mp there.1
      have lastStart := all last inside there.2
      rw [once.same member inside starts lastStart there.2.symm]
      exact ⟨last, by rw [← there.2] at found; exact found, lastStart, rfl⟩

variable [DecidableEq Cpu]

theorem run_concat (moves : List (Move Cpu)) (move : Move Cpu) :
    System.run (moves ++ [move]) = (System.run moves).step move := by
  rw [System.run, List.foldl_append]
  rfl

theorem run_follows (moves : List (Move Cpu)) : (System.run moves).buffers.Follows (history moves) := by
  induction moves using List.reverseRecOn with
  | nil => exact Lanes.follows_empty
  | append_singleton moves move ih =>
      rw [run_concat, history, List.filterMap_append]
      cases move with
      | start cpu task => exact ih.give cpu (linuxTaskStart task)
      | delete cpu task => exact ih.give cpu (linuxTaskDelete task)
      | poll cpu allocated =>
          simp only [List.filterMap_cons, List.filterMap_nil, Move.evt, List.append_nil, System.step]
          split
          case h_1 => exact ih
          case h_2 => exact ih.take cpu

theorem run_table (moves : List (Move Cpu)) (allocates : ∀ move ∈ moves, Allocates move) :
    (System.run moves).table = (System.run moves).handled.foldl (procContainerEvt true) [] := by
  induction moves using List.reverseRecOn with
  | nil => rfl
  | append_singleton moves move ih =>
      have before := ih fun earlier member => allocates earlier (List.mem_append_left _ member)
      rw [run_concat]
      cases move with
      | start cpu task => exact before
      | delete cpu task => exact before
      | poll cpu allocated =>
          have found : allocated = true := allocates (.poll cpu allocated) (by simp)
          simp only [System.step]
          split
          case h_1 => exact before
          case h_2 evt rest waiting =>
              simp only [System.handled, Lanes.take, waiting, List.map_append, List.map_singleton, List.foldl_append,
                List.foldl_cons, List.foldl_nil, found]
              rw [before]
              rfl

theorem table_follows_containers (moves : List (Move Cpu)) (allocates : ∀ move ∈ moves, Allocates move)
    (once : StartedOnce ((history moves).map Prod.snd))
    (empty : ∀ cpu, (System.run moves).buffers.pending cpu = []) :
    Follows (System.run moves).table ((history moves).map Prod.snd) ↔
      DeletedLast (System.run moves) ((history moves).map Prod.snd) := by
  rw [run_table moves allocates]
  apply handled_follows_iff once
  intro evt
  simp only [System.handled, List.mem_map, Prod.exists, exists_eq_right]
  apply exists_congr
  intro cpu
  exact (run_follows moves).mem_taken_iff empty

end Runs

def someTask : Container where
  id := List.replicate 64 97
  short := by decide
  pid := 100
  tgid := 1
  comm := ascii "containerd"

def otherTask : Container where
  id := List.replicate 64 98
  short := by decide
  pid := 200
  tgid := 1
  comm := ascii "containerd"

/-- One container is deleted on the CPU that started it, while the start of
another still waits. -/
def oneDeleted : List (Move (Fin 2)) :=
  [.start 0 someTask, .start 1 otherTask, .delete 0 someTask, .poll 0 true, .poll 0 true, .poll 1 true]

theorem table_follows_containers_deleted :
    (System.run oneDeleted).table = [itemOf (linuxTaskStart otherTask)] ∧
      Follows (System.run oneDeleted).table ((history oneDeleted).map Prod.snd) := by
  refine ⟨by decide, (table_follows_containers oneDeleted ?_ ?_ (by decide)).mpr ?_⟩
  · intro move member
    simp only [oneDeleted, List.mem_cons, List.not_mem_nil, or_false] at member
    rcases member with rfl | rfl | rfl | rfl | rfl | rfl <;> trivial
  · exact .cons (by decide) (.cons (by decide) (List.pairwise_singleton _ _))
  · have handled : lastHandled (System.run oneDeleted) someTask.id = some (linuxTaskDelete someTask) := by decide
    intro evt member deleted last found
    simp only [oneDeleted, history, Move.evt, List.filterMap_cons, List.filterMap_nil, List.map_cons, List.map_nil,
      List.mem_cons, List.not_mem_nil, or_false] at member
    rcases member with rfl | rfl | rfl
    · exact absurd rfl deleted
    · exact absurd rfl deleted
    · cases handled.symm.trans found
      exact deleted

/-- The deletion is handled while the start still waits. -/
theorem deleted_container_kept :
    let moves : List (Move (Fin 2)) := [.start 0 someTask, .delete 1 someTask, .poll 1 true, .poll 0 true]
    (∀ cpu, (System.run moves).buffers.pending cpu = []) ∧ (System.run moves).table = [itemOf (linuxTaskStart someTask)] ∧
      ¬ Follows (System.run moves).table ((history moves).map Prod.snd) := by
  intro moves
  have table : (System.run moves).table = [itemOf (linuxTaskStart someTask)] := by decide
  refine ⟨by decide, table, fun follows => ?_⟩
  obtain ⟨start, _, _, same, starts⟩ := (follows.mem_iff (itemOf (linuxTaskStart someTask))).mp (by rw [table]; simp)
  have ids : someTask.id = start.containerId := congrArg ContainerItem.containerId same
  have deleted := starts (linuxTaskDelete someTask) (by simp [moves, history, Move.evt]) ids
  exact absurd deleted (by decide)

end GalaGopher.Ebpf.Containerd
