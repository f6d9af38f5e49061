import GalaGopher.Data.Runs
import GalaGopher.Ebpf.TaskProbe

namespace GalaGopher.Ebpf.TaskProbe

open Data

/-! A task has its entry from the fork to the exit, as long as no child gets
the pid of an entry that is about to be deleted. -/

/-- The tables when the hooks start: entries of tasks that run, and no more. -/
structure Loaded where
  taskMap : TaskMap
  alive : TaskKey → Option Nat
  tasks : Nat
  active : ∀ pid data, taskMap.lookup pid = some data → data.isInvalid = false ∧ (alive pid).isSome
  numbered : ∀ pid task, alive pid = some task → task < tasks
  idle : taskMap.lookup 0 = none

def Loaded.world (loaded : Loaded) : World where
  maps := { taskMap := loaded.taskMap }
  alive := loaded.alive
  owner := loaded.alive
  tasks := loaded.tasks

/-- The pid whose entry the loop is at. -/
def Pull.held : Pull → Option TaskKey
  | .lookupBin _ nextKey _ | .deleteBin _ nextKey | .updateBin nextKey | .delete _ nextKey => some nextKey
  | .getNextKey _ | .lookup _ _ | .returned => none

theorem Pull.held_of_pending {pull : Pull} {pid : TaskKey} (pending : pull.pending = some pid) :
    pull.held = some pid := by
  cases pull with
  | lookupBin key nextKey data =>
      simp only [Pull.pending] at pending
      split at pending
      case isTrue => exact pending
      case isFalse => cases pending
  | deleteBin key nextKey => exact pending
  | delete key nextKey => exact pending
  | getNextKey key => cases pending
  | lookup key nextKey => cases pending
  | updateBin nextKey => cases pending
  | returned => cases pending

section Hooks

variable {taskMap : TaskMap} {parent child : TaskStruct} {key pid : TaskKey} {value data : TaskData}

/-- What a store leaves: the value under its key, and what was there before. -/
theorem lookup_updTaskEntry (found : (updTaskEntry taskMap key value).lookup pid = some data) :
    pid = key ∧ data = value ∨ pid ≠ key ∧ taskMap.lookup pid = some data := by
  unfold updTaskEntry at found
  cases updated : taskMap.update key value with
  | none =>
      have absent := ((taskMap.update_eq_none_iff key value).mp updated).1
      rw [updated, Option.getD_none] at found
      refine .inr ⟨?_, found⟩
      rintro rfl
      rw [absent] at found
      cases found
  | some after =>
      rw [updated, Option.getD_some, BoundedMap.lookup_update updated] at found
      split at found
      case isTrue same =>
          cases found
          exact .inl ⟨same, rfl⟩
      case isFalse different => exact .inr ⟨different, found⟩

theorem isSome_lookup_updTaskEntry (key : TaskKey) (value : TaskData) (present : (taskMap.lookup pid).isSome) :
    ((updTaskEntry taskMap key value).lookup pid).isSome := by
  unfold updTaskEntry
  cases updated : taskMap.update key value with
  | none => exact present
  | some after =>
      rw [Option.getD_some, BoundedMap.lookup_update updated]
      split
      case isTrue => rfl
      case isFalse => exact present

/-- Counting a fork adds an entry that is valid or leaves the status of each. -/
theorem lookup_countFork (found : (countFork taskMap parent child).lookup pid = some data) :
    (pid = parent.pid ∧ (taskMap.lookup parent.pid).isNone ∧ data.isInvalid = false) ∨
      (∃ before, taskMap.lookup pid = some before ∧ data.isInvalid = before.isInvalid) := by
  unfold countFork at found
  split at found
  case h_1 entry present =>
      rw [BoundedMap.lookup_modify] at found
      split at found
      case isTrue same =>
          subst same
          rw [present, Option.map_some] at found
          cases found
          exact .inr ⟨entry, present, rfl⟩
      case isFalse => exact .inr ⟨data, found, rfl⟩
  case h_2 absent =>
      rcases lookup_updTaskEntry found with ⟨same, rfl⟩ | ⟨_, before⟩
      · exact .inl ⟨same, by rw [absent]; rfl, rfl⟩
      · exact .inr ⟨data, before, rfl⟩

theorem isSome_lookup_countFork (parent child : TaskStruct) (present : (taskMap.lookup pid).isSome) :
    ((countFork taskMap parent child).lookup pid).isSome := by
  unfold countFork
  split
  case h_1 => rwa [BoundedMap.isSome_lookup_modify]
  case h_2 => exact isSome_lookup_updTaskEntry _ _ present

/-- The entries after a fork of a child on the list. -/
theorem lookup_schedProcessFork (found : (schedProcessFork taskMap true parent child).lookup pid = some data) :
    (pid = parent.pid ∧ ((addChild taskMap parent child).lookup parent.pid).isNone ∧ data.isInvalid = false) ∨
      (pid = child.pid ∧ data.isInvalid = false) ∨
      (pid ≠ child.pid ∧ ∃ before, taskMap.lookup pid = some before ∧ data.isInvalid = before.isInvalid) := by
  rcases lookup_countFork found with added | ⟨before, stored, same⟩
  · exact .inl added
  · rcases lookup_updTaskEntry stored with ⟨here, fresh⟩ | ⟨different, older⟩
    · refine .inr (.inl ⟨here, ?_⟩)
      rw [same, fresh]
      rfl
    · exact .inr (.inr ⟨different, before, older, same⟩)

theorem isSome_lookup_schedProcessFork (flag : Bool) (parent child : TaskStruct)
    (present : (taskMap.lookup pid).isSome) : ((schedProcessFork taskMap flag parent child).lookup pid).isSome := by
  unfold schedProcessFork
  split
  case isTrue => exact isSome_lookup_countFork parent child (isSome_lookup_updTaskEntry _ _ present)
  case isFalse => exact present

/-- An exit marks the entry of its pid and no other. -/
theorem lookup_schedProcessExit {exited : TaskKey} (found : (schedProcessExit taskMap exited).lookup pid = some data) :
    (pid = exited ∧ data.isInvalid = true) ∨ (pid ≠ exited ∧ taskMap.lookup pid = some data) := by
  rw [schedProcessExit, updateTaskStatus, BoundedMap.lookup_modify] at found
  split at found
  case isTrue same =>
      obtain ⟨before, _, rfl⟩ := Option.map_eq_some_iff.mp found
      exact .inl ⟨same, rfl⟩
  case isFalse different => exact .inr ⟨different, found⟩

end Hooks

namespace World

variable {world : World} {pid : TaskKey} {data : TaskData}

/-- What every run keeps. -/
structure Sound (world : World) : Prop where
  entry : ∀ pid data, world.maps.taskMap.lookup pid = some data → (data.isInvalid = false ↔ world.Lives pid)
  aliveBelow : ∀ pid task, world.alive pid = some task → task < world.tasks
  ownerBelow : ∀ pid task, world.owner pid = some task → task < world.tasks
  binWithin : ∀ pid, (world.maps.taskBinMap.lookup pid).isSome → (world.maps.taskMap.lookup pid).isSome
  idle : world.maps.taskMap.lookup 0 = none
  held : ∀ pid, world.pull.held = some pid → (world.maps.taskMap.lookup pid).isSome
  pending : ∀ pid data, world.pull.pending = some pid → world.maps.taskMap.lookup pid = some data →
    (data.isInvalid = false ↔ world.revived = true)
  deleting : ∀ key nextKey, world.pull = .delete key nextKey → world.maps.taskBinMap.lookup nextKey = none

theorem sound_loaded (loaded : Loaded) : loaded.world.Sound where
  entry pid data found := by
    obtain ⟨valid, running⟩ := loaded.active pid data found
    obtain ⟨task, alive⟩ := Option.isSome_iff_exists.mp running
    exact iff_of_true valid ⟨task, alive, alive⟩
  aliveBelow := loaded.numbered
  ownerBelow := loaded.numbered
  binWithin pid present := by cases present
  idle := loaded.idle
  held pid held := by cases held
  pending pid data pending := by cases pending
  deleting key nextKey pull := by cases pull

/-- A fork that can happen. -/
structure Forks (world : World) (parent child : TaskStruct) : Prop where
  childIdle : child.pid ≠ 0
  parentIdle : parent.pid ≠ 0
  free : world.alive child.pid = none
  running : ∃ task, world.alive parent.pid = some task

theorem fork_eq_self_or (world : World) (flag : Bool) (parent child : TaskStruct) :
    world.fork flag parent child = world ∨ world.Forks parent child := by
  by_cases guarded : child.pid = 0 ∨ parent.pid = 0 ∨ (world.alive child.pid).isSome ∨ (world.alive parent.pid).isNone
  · exact .inl (if_pos guarded)
  · simp only [not_or, Option.not_isSome_iff_eq_none, Option.isNone_iff_eq_none] at guarded
    exact .inr ⟨guarded.1, guarded.2.1, guarded.2.2.1, Option.ne_none_iff_exists'.mp guarded.2.2.2⟩

namespace Forks

variable {parent child : TaskStruct}

theorem ne (forks : world.Forks parent child) : parent.pid ≠ child.pid := by
  intro same
  obtain ⟨task, alive⟩ := forks.running
  rw [same, forks.free] at alive
  cases alive

theorem guard (forks : world.Forks parent child) :
    ¬ (child.pid = 0 ∨ parent.pid = 0 ∨ (world.alive child.pid).isSome ∨ (world.alive parent.pid).isNone) := by
  obtain ⟨task, alive⟩ := forks.running
  simp [forks.childIdle, forks.parentIdle, forks.free, alive]

theorem unlisted (forks : world.Forks parent child) :
    world.fork false parent child =
      { world with alive := Function.update world.alive child.pid (some world.tasks), tasks := world.tasks + 1 } := by
  rw [fork, if_neg forks.guard]
  simp [schedProcessFork]

theorem alive_of_ne {other : TaskKey} (different : other ≠ child.pid) (flag : Bool) (forks : world.Forks parent child) :
    (world.fork flag parent child).alive other = world.alive other := by
  rw [fork, if_neg forks.guard]
  exact Function.update_of_ne different _ _

theorem alive_child (flag : Bool) (forks : world.Forks parent child) :
    (world.fork flag parent child).alive child.pid = some world.tasks := by
  rw [fork, if_neg forks.guard]
  exact Function.update_self _ _ _

theorem tasks_eq (flag : Bool) (forks : world.Forks parent child) :
    (world.fork flag parent child).tasks = world.tasks + 1 := by
  rw [fork, if_neg forks.guard]

theorem maps_eq (flag : Bool) (forks : world.Forks parent child) :
    (world.fork flag parent child).maps =
      { world.maps with taskMap := schedProcessFork world.maps.taskMap flag parent child } := by
  rw [fork, if_neg forks.guard]

theorem pull_eq (flag : Bool) (forks : world.Forks parent child) :
    (world.fork flag parent child).pull = world.pull := by
  rw [fork, if_neg forks.guard]

theorem revived_eq (flag : Bool) (forks : world.Forks parent child) :
    (world.fork flag parent child).revived =
      (world.revived || (flag && world.pull.pending = some child.pid)) := by
  rw [fork, if_neg forks.guard]

theorem owner_child (forks : world.Forks parent child) :
    (world.fork true parent child).owner child.pid = some world.tasks := by
  rw [fork, if_neg forks.guard]
  simp only [true_and, if_true]
  split
  case isTrue => rw [Function.update_of_ne forks.ne.symm, Function.update_self]
  case isFalse => exact Function.update_self _ _ _

theorem owner_parent (forks : world.Forks parent child)
    (absent : ((addChild world.maps.taskMap parent child).lookup parent.pid).isNone) :
    (world.fork true parent child).owner parent.pid = world.alive parent.pid := by
  rw [fork, if_neg forks.guard]
  simp only [true_and, if_true, if_pos absent, Function.update_self]

/-- The owner of an entry is as before, or the fork wrote the entry. -/
theorem owner_of_ne {other : TaskKey} (flag : Bool) (forks : world.Forks parent child) (notChild : other ≠ child.pid) :
    (world.fork flag parent child).owner other = world.owner other ∨
      other = parent.pid ∧ (world.fork flag parent child).owner other = world.alive other ∧
        ((addChild world.maps.taskMap parent child).lookup parent.pid).isNone := by
  rw [fork, if_neg forks.guard]
  cases flag with
  | false => exact .inl (by simp)
  | true =>
      simp only [true_and, if_true]
      split
      case isTrue absent =>
          by_cases same : other = parent.pid
          · subst same
            exact .inr ⟨rfl, Function.update_self _ _ _, absent⟩
          · exact .inl (by rw [Function.update_of_ne same, Function.update_of_ne notChild])
      case isFalse => exact .inl (Function.update_of_ne notChild _ _)

theorem unlisted_maps (forks : world.Forks parent child) : (world.fork false parent child).maps = world.maps := by
  rw [forks.maps_eq]
  simp [schedProcessFork]

theorem lives_child (forks : world.Forks parent child) : (world.fork true parent child).Lives child.pid :=
  ⟨world.tasks, forks.alive_child true, forks.owner_child⟩

theorem lives_parent (forks : world.Forks parent child)
    (absent : ((addChild world.maps.taskMap parent child).lookup parent.pid).isNone) :
    (world.fork true parent child).Lives parent.pid := by
  obtain ⟨task, running⟩ := forks.running
  refine ⟨task, ?_, ?_⟩
  · rw [forks.alive_of_ne forks.ne, running]
  · rw [forks.owner_parent absent, running]

/-- Nothing changes for another entry that there is. -/
theorem lives_of_ne (flag : Bool) (forks : world.Forks parent child) (notChild : pid ≠ child.pid)
    (present : (world.maps.taskMap.lookup pid).isSome) :
    (world.fork flag parent child).Lives pid ↔ world.Lives pid := by
  have owner : (world.fork flag parent child).owner pid = world.owner pid := by
    rcases forks.owner_of_ne flag notChild with same | ⟨rfl, _, absent⟩
    · exact same
    · have kept : ((addChild world.maps.taskMap parent child).lookup parent.pid).isSome :=
        isSome_lookup_updTaskEntry _ _ present
      rw [Option.isNone_iff_eq_none.mp absent] at kept
      cases kept
  rw [Lives, Lives, forks.alive_of_ne notChild, owner]

end Forks

namespace Sound

variable {parent child : TaskStruct}

theorem fork_entry (sound : world.Sound) (flag : Bool) (forks : world.Forks parent child)
    (found : (world.fork flag parent child).maps.taskMap.lookup pid = some data) :
    data.isInvalid = false ↔ (world.fork flag parent child).Lives pid := by
  cases flag with
  | false =>
      rw [forks.unlisted_maps] at found
      have before := sound.entry pid data found
      by_cases same : pid = child.pid
      · -- The entry is that of a task that exited: the pid went to another.
        subst same
        have exited : ¬ world.Lives child.pid := by
          rintro ⟨task, alive, _⟩
          rw [forks.free] at alive
          cases alive
        have other : ¬ (world.fork false parent child).Lives child.pid := by
          rintro ⟨task, alive, owner⟩
          rw [forks.alive_child] at alive
          cases alive
          rw [forks.unlisted] at owner
          exact Nat.lt_irrefl _ (sound.ownerBelow child.pid world.tasks owner)
        exact iff_of_false (before.not.mpr exited) other
      · exact before.trans (forks.lives_of_ne false same (by rw [found]; rfl)).symm
  | true =>
      rw [forks.maps_eq] at found
      rcases lookup_schedProcessFork found with ⟨rfl, absent, valid⟩ | ⟨rfl, valid⟩ | ⟨notChild, older, stored, same⟩
      · exact iff_of_true valid (forks.lives_parent absent)
      · exact iff_of_true valid forks.lives_child
      · rw [same]
        exact (sound.entry pid older stored).trans (forks.lives_of_ne true notChild (by rw [stored]; rfl)).symm

theorem fork_pending (sound : world.Sound) (flag : Bool) (forks : world.Forks parent child)
    (pending : world.pull.pending = some pid)
    (found : (world.fork flag parent child).maps.taskMap.lookup pid = some data) :
    data.isInvalid = false ↔ (world.fork flag parent child).revived = true := by
  have present := sound.held pid (Pull.held_of_pending pending)
  rw [forks.revived_eq]
  cases flag with
  | false =>
      rw [forks.unlisted_maps] at found
      simpa using sound.pending pid data pending found
  | true =>
      rw [forks.maps_eq] at found
      rcases lookup_schedProcessFork found with ⟨rfl, absent, valid⟩ | ⟨rfl, valid⟩ | ⟨notChild, older, stored, same⟩
      · have kept : ((addChild world.maps.taskMap parent child).lookup parent.pid).isSome :=
          isSome_lookup_updTaskEntry _ _ present
        rw [Option.isNone_iff_eq_none.mp absent] at kept
        cases kept
      · simp [valid, pending]
      · rw [same, sound.pending pid older pending stored]
        simp [pending, notChild]

theorem fork_owner (sound : world.Sound) (flag : Bool) (forks : world.Forks parent child) {task : Nat}
    (owner : (world.fork flag parent child).owner pid = some task) : task < world.tasks + 1 := by
  by_cases same : pid = child.pid
  · subst same
    cases flag with
    | false =>
        rw [forks.unlisted] at owner
        exact Nat.lt_succ_of_lt (sound.ownerBelow child.pid task owner)
    | true =>
        rw [forks.owner_child] at owner
        cases owner
        exact Nat.lt_succ_self _
  · rcases forks.owner_of_ne flag same with before | ⟨_, running, _⟩
    · rw [before] at owner
      exact Nat.lt_succ_of_lt (sound.ownerBelow pid task owner)
    · rw [running] at owner
      exact Nat.lt_succ_of_lt (sound.aliveBelow pid task owner)

theorem fork_idle (sound : world.Sound) (flag : Bool) (forks : world.Forks parent child) :
    (schedProcessFork world.maps.taskMap flag parent child).lookup 0 = none := by
  cases flag with
  | false => exact sound.idle
  | true =>
      rcases Option.eq_none_or_eq_some ((schedProcessFork world.maps.taskMap true parent child).lookup 0) with
        absent | ⟨data, found⟩
      · exact absent
      · rcases lookup_schedProcessFork found with ⟨same, _⟩ | ⟨same, _⟩ | ⟨_, older, stored, _⟩
        · exact absurd same.symm forks.parentIdle
        · exact absurd same.symm forks.childIdle
        · rw [sound.idle] at stored
          cases stored

theorem fork (sound : world.Sound) (flag : Bool) (parent child : TaskStruct) :
    (world.fork flag parent child).Sound := by
  rcases fork_eq_self_or world flag parent child with same | forks
  · rwa [same]
  · have kept (pid : TaskKey) (present : (world.maps.taskMap.lookup pid).isSome) :
        ((world.fork flag parent child).maps.taskMap.lookup pid).isSome := by
      rw [forks.maps_eq]
      exact isSome_lookup_schedProcessFork flag parent child present
    refine {
      entry := fun pid data found => sound.fork_entry flag forks found
      aliveBelow := fun pid task alive => ?aliveBelow
      ownerBelow := fun pid task owner => ?ownerBelow
      binWithin := fun pid present => ?binWithin
      idle := ?idle
      held := fun pid held => ?held
      pending := fun pid data pending found => ?pending
      deleting := fun key nextKey pull => ?deleting }
    case aliveBelow =>
      rw [forks.tasks_eq]
      by_cases same : pid = child.pid
      · subst same
        rw [forks.alive_child] at alive
        cases alive
        exact Nat.lt_succ_self _
      · rw [forks.alive_of_ne same] at alive
        exact Nat.lt_succ_of_lt (sound.aliveBelow pid task alive)
    case ownerBelow =>
      rw [forks.tasks_eq]
      exact sound.fork_owner flag forks owner
    case binWithin =>
      rw [forks.maps_eq] at present
      exact kept pid (sound.binWithin pid present)
    case idle =>
      rw [forks.maps_eq]
      exact sound.fork_idle flag forks
    case held =>
      rw [forks.pull_eq] at held
      exact kept pid (sound.held pid held)
    case pending =>
      rw [forks.pull_eq] at pending
      exact sound.fork_pending flag forks pending found
    case deleting =>
      rw [forks.pull_eq] at pull
      rw [forks.maps_eq]
      exact sound.deleting key nextKey pull

theorem exit (sound : world.Sound) (exited : TaskKey) : (world.exit exited).Sound := by
  unfold World.exit
  split
  case isTrue => exact sound
  case isFalse running =>
      have kept (pid : TaskKey) (present : (world.maps.taskMap.lookup pid).isSome) :
          ((schedProcessExit world.maps.taskMap exited).lookup pid).isSome := by
        rwa [schedProcessExit, updateTaskStatus, BoundedMap.isSome_lookup_modify]
      refine {
        entry := fun pid data found => ?entry
        aliveBelow := fun pid task alive => ?aliveBelow
        ownerBelow := sound.ownerBelow
        binWithin := fun pid present => kept pid (sound.binWithin pid present)
        idle := ?idle
        held := fun pid held => kept pid (sound.held pid held)
        pending := fun pid data pending found => ?pending
        deleting := sound.deleting }
      case entry =>
        rcases lookup_schedProcessExit found with ⟨rfl, marked⟩ | ⟨other, before⟩
        · simp [marked, Lives]
        · simpa [Lives, Function.update_of_ne other] using sound.entry pid data before
      case aliveBelow =>
        by_cases same : pid = exited
        · simp [same] at alive
        · exact sound.aliveBelow pid task (by simpa [Function.update_of_ne same] using alive)
      case idle =>
        rw [schedProcessExit, updateTaskStatus, BoundedMap.lookup_modify]
        split
        case isTrue same =>
            rw [← same, sound.idle]
            rfl
        case isFalse => exact sound.idle
      case pending =>
        rcases lookup_schedProcessExit found with ⟨rfl, marked⟩ | ⟨other, before⟩
        · simp [marked, show world.pull.pending = some pid from pending]
        · have others : world.pull.pending ≠ some exited := by
            intro same
            rw [show world.pull.pending = some pid from pending] at same
            cases same
            exact other rfl
          simpa [others] using sound.pending pid data pending before

/-- The loop moves on and changes no map. -/
theorem moved (sound : world.Sound) {pull : Pull} (revived : Bool)
    (held : ∀ pid, pull.held = some pid → (world.maps.taskMap.lookup pid).isSome)
    (pending : ∀ pid data, pull.pending = some pid → world.maps.taskMap.lookup pid = some data →
      (data.isInvalid = false ↔ revived = true))
    (deleting : ∀ key nextKey, pull = .delete key nextKey → world.maps.taskBinMap.lookup nextKey = none) :
    Sound { world with pull, revived } :=
  { entry := sound.entry, aliveBelow := sound.aliveBelow, ownerBelow := sound.ownerBelow, binWithin := sound.binWithin,
    idle := sound.idle, held, pending, deleting }

theorem rests (sound : world.Sound) {pull : Pull} (revived : Bool) (free : pull.held = none) :
    Sound { world with pull, revived } := by
  refine sound.moved revived (fun pid held => ?_) (fun pid data pending => ?_) (fun key nextKey delete => ?_)
  · rw [free] at held
    cases held
  · rw [Pull.held_of_pending pending] at free
    cases free
  · rw [delete] at free
    cases free

/-- The loop changes the second map, for a key that the first one has. -/
theorem binChanged (sound : world.Sound) (taskBinMap : TaskBinMap) {nextKey : TaskKey}
    (held : world.pull.held = some nextKey) (here : ∀ key other, world.pull ≠ .delete key other)
    (kept : ∀ pid, pid ≠ nextKey → (taskBinMap.lookup pid).isSome → (world.maps.taskBinMap.lookup pid).isSome) :
    Sound { world with maps.taskBinMap := taskBinMap } :=
  { entry := sound.entry, aliveBelow := sound.aliveBelow, ownerBelow := sound.ownerBelow, idle := sound.idle,
    held := sound.held, pending := sound.pending
    deleting := fun key other delete => absurd delete (here key other)
    binWithin := fun pid present => by
      by_cases same : pid = nextKey
      · exact same ▸ sound.held nextKey held
      · exact sound.binWithin pid (kept pid same present) }

theorem deleted (sound : world.Sound) {key nextKey : TaskKey} (delete : world.pull = .delete key nextKey) :
    Sound { world with
      maps.taskMap := world.maps.taskMap.delete nextKey
      pull := .getNextKey key
      revived := world.revived && world.pull.pending.isSome } := by
  have earlier {pid : TaskKey} {data : TaskData} (found : (world.maps.taskMap.delete nextKey).lookup pid = some data) :
      world.maps.taskMap.lookup pid = some data := by
    rw [BoundedMap.lookup_delete] at found
    split at found
    case isTrue => cases found
    case isFalse => exact found
  refine {
    entry := fun pid data found => sound.entry pid data (earlier found)
    aliveBelow := sound.aliveBelow
    ownerBelow := sound.ownerBelow
    binWithin := fun pid present => ?_
    idle := ?_
    held := fun pid held => by cases held
    pending := fun pid data pending => by cases pending
    deleting := fun key nextKey pull => by cases pull }
  · have other : pid ≠ nextKey := by
      rintro rfl
      rw [sound.deleting key pid delete] at present
      cases present
    rw [BoundedMap.lookup_delete_of_ne other]
    exact sound.binWithin pid present
  · rw [BoundedMap.lookup_delete, sound.idle, ite_self]

theorem pull (sound : world.Sound) (walk : Enumeration TaskKey TaskData shareMapTaskMaxEntries) :
    (world.step (.pull walk)).Sound := by
  obtain ⟨maps, pull, alive, owner, tasks, revived⟩ := world
  cases pull with
  | getNextKey key =>
      cases next : walk.next maps.taskMap key with
      | none => simpa [step, pullStep, next] using sound.rests _ rfl
      | some nextKey => simpa [step, pullStep, next] using sound.rests _ rfl
  | lookup key nextKey =>
      cases found : maps.taskMap.lookup nextKey with
      | none => simpa [step, pullStep, found] using sound.rests _ rfl
      | some data =>
          simp only [step, pullStep, found, Pull.pending, Option.isSome_none, Bool.and_false]
          refine sound.moved false (fun pid held => ?_) (fun pid entry pending stored => ?_) (by simp)
          · cases held
            simp [found]
          · simp only [Pull.pending] at pending
            split at pending
            case isTrue invalid =>
                cases pending
                rw [show maps.taskMap.lookup nextKey = some entry from stored] at found
                cases found
                simp [invalid]
            case isFalse => cases pending
  | lookupBin key nextKey data =>
      have held := sound.held nextKey rfl
      have pending := sound.pending
      cases found : maps.taskBinMap.lookup nextKey with
      | none =>
          cases invalid : data.isInvalid with
          | false =>
              simp only [step, pullStep, found, invalid]
              refine sound.moved _ (fun pid same => ?_) (by simp [Pull.pending]) (by simp)
              cases same
              exact held
          | true =>
              simp only [step, pullStep, found, invalid, Pull.pending, if_true, Option.isSome_some, Bool.and_true]
              refine sound.moved revived (fun pid same => ?_) (fun pid entry same stored => ?_)
                (fun key other same => ?_)
              · cases same
                exact held
              · cases same
                exact pending nextKey entry (by simp [Pull.pending, invalid]) stored
              · cases same
                exact found
      | some bin =>
          cases invalid : data.isInvalid with
          | false =>
              simp only [step, pullStep, found, invalid]
              exact sound.rests _ rfl
          | true =>
              simp only [step, pullStep, found, invalid, Pull.pending, if_true, Option.isSome_some, Bool.and_true]
              refine sound.moved revived (fun pid same => ?_) (fun pid entry same stored => ?_) (by simp)
              · cases same
                exact held
              · cases same
                exact pending nextKey entry (by simp [Pull.pending, invalid]) stored
  | deleteBin key nextKey =>
      have changed := sound.binChanged (maps.taskBinMap.delete nextKey) rfl (by simp) fun pid other present => by
          rwa [BoundedMap.lookup_delete_of_ne other] at present
      simp only [step, pullStep, Pull.pending, Option.isSome_some, Bool.and_true]
      refine changed.moved revived (fun pid same => ?_) (fun pid entry same stored => ?_) (fun key other same => ?_)
      · cases same
        exact sound.held nextKey rfl
      · cases same
        exact sound.pending nextKey entry rfl stored
      · cases same
        exact BoundedMap.lookup_delete_self _ _
  | updateBin nextKey =>
      have changed := sound.binChanged ((maps.taskBinMap.update nextKey {}).getD maps.taskBinMap) rfl (by simp)
        fun pid other present => by
          cases updated : maps.taskBinMap.update nextKey {} with
          | none => rwa [updated] at present
          | some after =>
              rw [updated, Option.getD_some, BoundedMap.lookup_update updated, if_neg other] at present
              exact present
      exact changed.rests _ rfl
  | delete key nextKey => exact sound.deleted rfl
  | returned => exact sound.rests _ rfl

theorem step (sound : world.Sound) (event : Event) : (world.step event).Sound := by
  cases event with
  | fork flag parent child => exact sound.fork flag parent child
  | exit pid => exact sound.exit pid
  | pull walk => exact sound.pull walk

end Sound

/-- A step that deletes an entry does not delete that of a task that runs. -/
def Spares (world : World) : Event → Prop
  | .pull _ =>
      match world.pull with
      | .delete _ nextKey => (world.maps.taskMap.lookup nextKey).isSome → ¬ world.Lives nextKey
      | _ => True
  | .fork _ _ _ | .exit _ => True

/-- No child on the list that still runs got the pid since the entry was found
invalid. -/
def Unreused (world : World) : Event → Prop
  | .pull _ =>
      match world.pull with
      | .delete _ _ => world.revived = false
      | _ => True
  | .fork _ _ _ | .exit _ => True

theorem Sound.spares_iff (sound : world.Sound) (event : Event) : world.Spares event ↔ world.Unreused event := by
  cases event with
  | fork flag parent child => exact Iff.rfl
  | exit pid => exact Iff.rfl
  | pull walk =>
      obtain ⟨maps, pull, alive, owner, tasks, revived⟩ := world
      cases pull with
      | delete key nextKey =>
          have present := sound.held nextKey rfl
          obtain ⟨data, found⟩ := Option.isSome_iff_exists.mp present
          have lives := sound.entry nextKey data found
          have reused := sound.pending nextKey data rfl found
          simp only [Spares, Unreused, ← lives, reused, forall_prop_of_true present, Bool.not_eq_true]
      | getNextKey key => exact Iff.rfl
      | lookup key nextKey => exact Iff.rfl
      | lookupBin key nextKey data => exact Iff.rfl
      | deleteBin key nextKey => exact Iff.rfl
      | updateBin nextKey => exact Iff.rfl
      | returned => exact Iff.rfl

theorem sound_run (loaded : Loaded) (events : List Event) : (events.foldl World.step loaded.world).Sound :=
  (Runs.foldl World.step loaded.world events).invariant Sound (sound_loaded loaded) fun _ event _ taken sound =>
    taken ▸ sound.step event

theorem spares_iff_unreused (loaded : Loaded) (events : List Event) :
    Allows World.step Spares loaded.world events ↔ Allows World.step Unreused loaded.world events :=
  Allows.iff_of_invariant Sound (fun _ event sound => sound.step event) (fun _ event sound => sound.spares_iff event)
    (sound_loaded loaded)

end World

end GalaGopher.Ebpf.TaskProbe
