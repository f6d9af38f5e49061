import GalaGopher.Ebpf.TaskProbe.Lifetimes

namespace GalaGopher.Ebpf.TaskProbe

open Data

/-- `update_task_bin_map` with no event in between -/
def updateTaskBinMap (taskBinMap : TaskBinMap) (key : TaskKey) (data : TaskData) : TaskBinMap :=
  match taskBinMap.lookup key with
  | some _ => if data.isInvalid then taskBinMap.delete key else taskBinMap
  | none => if data.isInvalid then taskBinMap else (taskBinMap.update key {}).getD taskBinMap

variable {walk : Enumeration TaskKey TaskData shareMapTaskMaxEntries} {taskMap : TaskMap} {taskBinMap : TaskBinMap}
  {key pid : TaskKey} {data : TaskData}

section Bins

theorem isSome_lookup_updateTaskBinMap
    (within : ∀ pid, (taskBinMap.lookup pid).isSome → (taskMap.lookup pid).isSome)
    (present : (taskMap.lookup key).isSome) (data : TaskData) (pid : TaskKey) :
    ((updateTaskBinMap taskBinMap key data).lookup pid).isSome =
      if pid = key then !data.isInvalid else (taskBinMap.lookup pid).isSome := by
  unfold updateTaskBinMap
  split
  case h_1 bin found =>
      cases invalid : data.isInvalid with
      | true =>
          rw [if_pos rfl, BoundedMap.lookup_delete]
          split <;> rfl
      | false =>
          rw [if_neg (by decide)]
          split
          case isTrue same => simp [same, found]
          case isFalse => rfl
  case h_2 absent =>
      cases invalid : data.isInvalid with
      | true =>
          rw [if_pos rfl]
          split
          case isTrue same => simp [same, absent]
          case isFalse => rfl
      | false =>
          obtain ⟨after, updated⟩ :=
            Option.isSome_iff_exists.mp (BoundedMap.isSome_update_of_within within present ({} : TaskBin))
          rw [if_neg (by decide), updated, Option.getD_some, BoundedMap.lookup_update updated]
          split <;> rfl

/-- The visits to some entries of a table, each once. -/
theorem isSome_lookup_visits {entries : List (TaskKey × TaskData)} (distinct : (entries.map Prod.fst).Nodup)
    (stored : ∀ entry ∈ entries, taskMap.lookup entry.1 = some entry.2)
    (within : ∀ pid, (taskBinMap.lookup pid).isSome → (taskMap.lookup pid).isSome) :
    let after := entries.foldl (fun bins entry => updateTaskBinMap bins entry.1 entry.2) taskBinMap
    (∀ pid, (after.lookup pid).isSome → (taskMap.lookup pid).isSome) ∧
      (∀ pid, pid ∉ entries.map Prod.fst → (after.lookup pid).isSome = (taskBinMap.lookup pid).isSome) ∧
      ∀ pid data, (pid, data) ∈ entries → (after.lookup pid).isSome = !data.isInvalid := by
  induction entries generalizing taskBinMap with
  | nil => exact ⟨within, fun _ _ => rfl, fun _ _ member => absurd member List.not_mem_nil⟩
  | cons entry entries ih =>
      rw [List.map_cons, List.nodup_cons] at distinct
      have present : (taskMap.lookup entry.1).isSome := by
        rw [stored entry List.mem_cons_self]
        rfl
      have visited := isSome_lookup_updateTaskBinMap within present entry.2
      have still (pid : TaskKey) (bin : ((updateTaskBinMap taskBinMap entry.1 entry.2).lookup pid).isSome) :
          (taskMap.lookup pid).isSome := by
        by_cases same : pid = entry.1
        · exact same ▸ present
        · rw [visited, if_neg same] at bin
          exact within pid bin
      obtain ⟨kept, others, visits⟩ :=
        ih distinct.2 (fun other member => stored other (List.mem_cons_of_mem _ member)) still
      refine ⟨kept, fun pid fresh => ?_, fun pid data member => ?_⟩
      · rw [List.map_cons, List.mem_cons, not_or] at fresh
        rw [List.foldl_cons, others pid fresh.2, visited, if_neg fresh.1]
      · rcases List.mem_cons.mp member with rfl | later
        · rw [List.foldl_cons, others pid distinct.1, visited, if_pos rfl]
        · exact visits pid data later

end Bins

/-- Steps of the loop, the last of which may return. -/
inductive Pulls (walk : Enumeration TaskKey TaskData shareMapTaskMaxEntries) :
    Maps × Pull → Nat → Maps × Pull → Prop where
  | here (state : Maps × Pull) : Pulls walk state 0 state
  | step {maps : Maps} {pull : Pull} {count : Nat} {after : Maps × Pull} (running : pull ≠ .returned)
      (later : Pulls walk (pullStep walk maps pull) count after) : Pulls walk (maps, pull) (count + 1) after

namespace Pulls

variable {state middle after : Maps × Pull} {count more : Nat}

theorem trans (first : Pulls walk state count middle) (second : Pulls walk middle more after) :
    ∃ total, Pulls walk state total after := by
  induction first with
  | here => exact ⟨more, second⟩
  | step running _ ih =>
      obtain ⟨total, later⟩ := ih second
      exact ⟨total + 1, later.step running⟩

/-- The visit to the entry after the cursor. -/
theorem visit {cursor : TaskKey} (taskBinMap : TaskBinMap) (next : walk.next taskMap cursor = some key)
    (found : taskMap.lookup key = some data) :
    ∃ count, Pulls walk ({ taskMap, taskBinMap }, .getNextKey cursor) count
      (if data.isInvalid then
        ({ taskMap := taskMap.delete key, taskBinMap := updateTaskBinMap taskBinMap key data }, .getNextKey cursor)
      else
        ({ taskMap, taskBinMap := updateTaskBinMap taskBinMap key data }, .getNextKey key)) := by
  have looked (count : Nat) {after : Maps × Pull}
      (later : Pulls walk (pullStep walk { taskMap, taskBinMap } (.lookupBin cursor key data)) count after) :
      Pulls walk ({ taskMap, taskBinMap }, .getNextKey cursor) (count + 1 + 1 + 1) after := by
    refine .step (by simp) ?_
    simp only [pullStep, next]
    refine .step (by simp) ?_
    simp only [pullStep, found]
    exact .step (by simp) later
  unfold updateTaskBinMap
  cases bin : taskBinMap.lookup key with
  | some held =>
      cases invalid : data.isInvalid with
      | true =>
          refine ⟨_, looked 2 ?_⟩
          simp only [pullStep, bin, invalid, if_true]
          exact .step (by simp) (.step (by simp) (.here _))
      | false =>
          refine ⟨_, looked 0 ?_⟩
          simp only [pullStep, bin, invalid]
          exact .here _
  | none =>
      cases invalid : data.isInvalid with
      | true =>
          refine ⟨_, looked 1 ?_⟩
          simp only [pullStep, bin, invalid, if_true]
          exact .step (by simp) (.here _)
      | false =>
          refine ⟨_, looked 1 ?_⟩
          simp only [pullStep, bin, invalid]
          exact .step (by simp) (.here _)

/-- The steps of a pass do what a sweep does. -/
theorem of_sweep {fuel : Nat} {cursor : TaskKey} {last : TaskMap × TaskBinMap}
    (swept : walk.sweep TaskData.isInvalid updateTaskBinMap fuel taskMap cursor taskBinMap = some last) :
    ∃ count, Pulls walk ({ taskMap, taskBinMap }, .getNextKey cursor) count
      ({ taskMap := last.1, taskBinMap := last.2 }, .returned) := by
  induction fuel generalizing taskMap taskBinMap cursor with
  | zero => cases swept
  | succ fuel ih =>
      rw [Enumeration.sweep] at swept
      cases next : walk.next taskMap cursor with
      | none =>
          rw [next] at swept
          cases swept
          refine ⟨1, .step (by simp) ?_⟩
          simp only [pullStep, next]
          exact .here _
      | some key =>
          cases found : taskMap.lookup key with
          | none => simp [next, found] at swept
          | some data =>
              obtain ⟨count, visited⟩ := visit taskBinMap next found
              simp only [next, found] at swept
              cases invalid : data.isInvalid with
              | true =>
                  rw [invalid, if_pos rfl] at swept visited
                  obtain ⟨more, rest⟩ := ih swept
                  exact visited.trans rest
              | false =>
                  rw [invalid, if_neg (by decide)] at swept visited
                  obtain ⟨more, rest⟩ := ih swept
                  exact visited.trans rest

/-- The steps among the events: nothing but the loop moves. -/
theorem world_steps {world : World} {pull : Pull} {maps : Maps}
    (pulls : Pulls walk (world.maps, world.pull) count (maps, pull)) :
    let pass := List.replicate count (Event.pull walk)
    (pass.foldl World.step world).maps = maps ∧ (pass.foldl World.step world).pull = pull ∧
      ∀ fewer < count, ((List.replicate fewer (Event.pull walk)).foldl World.step world).pull ≠ .returned := by
  generalize start : (world.maps, world.pull) = state at pulls
  generalize finish : (maps, pull) = last at pulls
  induction pulls generalizing world with
  | here =>
      cases start
      cases finish
      exact ⟨rfl, rfl, fun fewer below => absurd below (Nat.not_lt_zero _)⟩
  | step running later ih =>
      cases start
      obtain ⟨mapsEq, pullEq, before⟩ := @ih (world.step (.pull walk)) rfl finish
      refine ⟨mapsEq, pullEq, fun fewer below => ?_⟩
      cases fewer with
      | zero => exact running
      | succ fewer => exact before fewer (Nat.lt_of_succ_lt_succ below)

end Pulls

namespace World

/-- No entry of a task that exited in either map, and the same keys in both. -/
structure Clean (world : World) : Prop where
  task : ∀ pid data, world.maps.taskMap.lookup pid = some data → data.isInvalid = false ∧ world.Lives pid
  keys : ∀ pid, (world.maps.taskBinMap.lookup pid).isSome = (world.maps.taskMap.lookup pid).isSome

variable {world : World}

/-- A pass returns, with no invalid entry and the same keys in the maps. -/
theorem Sound.pass (sound : world.Sound) (start : world.pull = .getNextKey 0)
    (walk : Enumeration TaskKey TaskData shareMapTaskMaxEntries) :
    ∃ count maps, Pulls walk (world.maps, world.pull) count (maps, .returned) ∧
      (∀ pid data, maps.taskMap.lookup pid = some data → data.isInvalid = false) ∧
      ∀ pid, (maps.taskBinMap.lookup pid).isSome = (maps.taskMap.lookup pid).isSome := by
  have outside : (0 : TaskKey) ∉ walk.order world.maps.taskMap := by
    rw [walk.mem_order_iff, sound.idle]
    exact Bool.false_ne_true
  obtain ⟨taskMap, swept, lookups⟩ :=
    @Enumeration.sweep_all _ _ _ _ _ walk world.maps.taskMap 0 TaskData.isInvalid updateTaskBinMap
      world.maps.taskBinMap outside _ (Nat.lt_succ_self _)
  have listed := walk.listing_perm world.maps.taskMap
  have distinct := (listed.map Prod.fst).nodup_iff.mpr world.maps.taskMap.distinct
  obtain ⟨within, _, visits⟩ := isSome_lookup_visits distinct
    (fun entry member => (world.maps.taskMap.lookup_eq_some_iff entry.1 entry.2).mpr (listed.mem_iff.mp member))
    sound.binWithin
  obtain ⟨count, pulls⟩ := Pulls.of_sweep swept
  refine ⟨count, _, start ▸ pulls, fun pid data found => ?_, fun pid => ?_⟩
  · rw [lookups] at found
    simpa using (Option.filter_eq_some_iff.mp found).2
  · cases found : world.maps.taskMap.lookup pid with
    | none =>
        rw [lookups, found]
        refine Bool.eq_false_iff.mpr fun bin => ?_
        have present := within pid bin
        rw [found] at present
        cases present
    | some data =>
        have member := listed.mem_iff.mpr ((world.maps.taskMap.lookup_eq_some_iff pid data).mp found)
        rw [visits pid data member, lookups, found]
        cases invalid : data.isInvalid <;> simp [Option.filter, invalid]

/-- No step deletes the entry of a task that runs exactly in the runs where no
child gets the pid of an entry that was found invalid, and runs, when the entry
is deleted.  Every pass that has the maps to itself leaves them clean. -/
theorem entries_follow_tasks (loaded : Loaded) (events : List Event) :
    (Allows World.step Spares loaded.world events ↔ Allows World.step Unreused loaded.world events) ∧
      ((events.foldl World.step loaded.world).pull = .getNextKey 0 →
        ∀ walk : Enumeration TaskKey TaskData shareMapTaskMaxEntries,
          let pulled (count : Nat) := (events ++ List.replicate count (Event.pull walk)).foldl World.step loaded.world
          ∃ count, (pulled count).pull = .returned ∧ (∀ fewer < count, (pulled fewer).pull ≠ .returned) ∧
            (pulled count).Clean) := by
  refine ⟨spares_iff_unreused loaded events, fun start walk => ?_⟩
  obtain ⟨count, maps, pulls, valid, keys⟩ := (sound_run loaded events).pass start walk
  obtain ⟨mapsEq, pullEq, before⟩ := pulls.world_steps
  have sound := sound_run loaded (events ++ List.replicate count (Event.pull walk))
  simp only [List.foldl_append] at sound ⊢
  refine ⟨count, pullEq, before, { task := fun pid data found => ?_, keys := fun pid => ?_ }⟩
  · have running := sound.entry pid data found
    rw [mapsEq] at found
    have active := valid pid data found
    exact ⟨active, running.mp active⟩
  · rw [mapsEq]
    exact keys pid

end World

/-- One task, which the table does not have. -/
def lone : Loaded where
  taskMap := .empty
  alive pid := if pid = 1 then some 0 else none
  tasks := 1
  active pid data found := by cases found
  numbered pid task alive := by
    split at alive
    case isTrue => cases alive; decide
    case isFalse => cases alive
  idle := rfl

/-- It has two children, of which one exits between two passes. -/
def exited : List Event :=
  let parent : TaskStruct := { pid := 1, tgid := 1, pgid := 1 }
  [.fork true parent { pid := 7, tgid := 7, pgid := 1 }, .fork true parent { pid := 9, tgid := 9, pgid := 1 }] ++
    List.replicate 14 (.pull .stored) ++ [.exit 7]

theorem entries_follow_tasks_lone :
    let pulled (count : Nat) := (exited ++ List.replicate count (Event.pull .stored)).foldl World.step lone.world
    (Allows World.step World.Spares lone.world exited ↔ Allows World.step World.Unreused lone.world exited) ∧
      ((pulled 0).maps.taskMap.entries.map fun entry => (entry.1, entry.2.isInvalid)) =
        [(7, true), (1, false), (9, false)] ∧
      ((pulled 0).maps.taskBinMap.lookup 7).isSome ∧
      ∃ count, (pulled count).pull = .returned ∧ (∀ fewer < count, (pulled fewer).pull ≠ .returned) ∧
        (pulled count).Clean := by
  obtain ⟨spares, pass⟩ := World.entries_follow_tasks lone exited
  exact ⟨spares, by decide +kernel, by decide +kernel, pass rfl .stored⟩

/-- A child gets the pid of a task that exited, between the look at the old
entry and its deletion: the entry of the child is deleted. -/
theorem reused_pid_loses_entry :
    let parent : TaskStruct := { pid := 1, tgid := 1, pgid := 1 }
    let child : TaskStruct := { pid := 7, tgid := 7, pgid := 1 }
    let look : Event := .pull .stored
    ¬ Allows World.step World.Spares lone.world
      [.fork true parent child, .exit 7, look, look, look, .fork true parent child, look] := by
  intro parent child look allows
  have spares := allows.2.2.2.2.2.2.1
  exact spares (by decide +kernel) ⟨2, by decide +kernel, by decide +kernel⟩

end GalaGopher.Ebpf.TaskProbe
