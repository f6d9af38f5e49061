import GalaGopher.Data.Sweep
import GalaGopher.Text.Bytes
import Mathlib.Logic.Function.Basic

namespace GalaGopher.Ebpf.TaskProbe

open Data Text

def shareMapTaskMaxEntries : Nat := 10 * 1024

/-- `enum task_status_type` -/
inductive TaskStatus where
  | active
  | inactive
  | invalid
deriving DecidableEq

structure TaskId where
  tgid : Int32
  pid : Int32
  ppid : Int32
  pgid : Int32

structure TaskBaseData where
  taskStatus : TaskStatus := .active
  forkCount : UInt32 := 0

/-- The fields of `struct task_data` that the hooks here and the loop use. -/
structure TaskData where
  id : TaskId
  base : TaskBaseData := {}

def TaskData.isInvalid (data : TaskData) : Bool := data.base.taskStatus = .invalid

structure TaskBin where
  comm : Bytes := []
  execFile : Bytes := []
  exeFile : Bytes := []

/-- `struct task_key`; the cursor of the loop starts at 0. -/
abbrev TaskKey := Int32

abbrev TaskMap := BoundedMap TaskKey TaskData shareMapTaskMaxEntries

abbrev TaskBinMap := BoundedMap TaskKey TaskBin shareMapTaskMaxEntries

/-- What the hooks read of a `struct task_struct`. -/
structure TaskStruct where
  pid : Int32
  tgid : Int32
  pgid : Int32

def updTaskEntry (taskMap : TaskMap) (key : TaskKey) (value : TaskData) : TaskMap := (taskMap.update key value).getD taskMap

/-- The entry of the child; `flag` says that its name is on the list. -/
def addChild (taskMap : TaskMap) (parent child : TaskStruct) : TaskMap :=
  updTaskEntry taskMap child.pid { id := { pid := child.pid, tgid := child.tgid, ppid := parent.pid, pgid := child.pgid } }

def countFork (taskMap : TaskMap) (parent child : TaskStruct) : TaskMap :=
  match taskMap.lookup parent.pid with
  | some _ => taskMap.modify parent.pid fun data => { data with base.forkCount := data.base.forkCount + 1 }
  | none =>
      updTaskEntry taskMap parent.pid
        { id := { pid := parent.pid, tgid := parent.tgid, ppid := -1, pgid := child.pgid }
          base := { forkCount := 1 } }

def schedProcessFork (taskMap : TaskMap) (flag : Bool) (parent child : TaskStruct) : TaskMap :=
  if flag then countFork (addChild taskMap parent child) parent child else taskMap

def updateTaskStatus (taskMap : TaskMap) (pid : TaskKey) (taskStatus : TaskStatus) : TaskMap :=
  taskMap.modify pid fun data => { data with base.taskStatus := taskStatus }

def schedProcessExit (taskMap : TaskMap) (pid : TaskKey) : TaskMap := updateTaskStatus taskMap pid .invalid

structure Maps where
  taskMap : TaskMap
  taskBinMap : TaskBinMap := .empty

/-- Where `pull_probe_data` is: which access to a map comes next. -/
inductive Pull where
  | getNextKey (key : TaskKey)
  | lookup (key nextKey : TaskKey)
  | lookupBin (key nextKey : TaskKey) (data : TaskData)
  | deleteBin (key nextKey : TaskKey)
  | updateBin (nextKey : TaskKey)
  | delete (key nextKey : TaskKey)
  | returned

/-- One access; the order of the keys is that of the moment. -/
def pullStep (walk : Enumeration TaskKey TaskData shareMapTaskMaxEntries) (maps : Maps) : Pull → Maps × Pull
  | .getNextKey key =>
      match walk.next maps.taskMap key with
      | none => (maps, .returned)
      | some nextKey => (maps, .lookup key nextKey)
  | .lookup key nextKey =>
      match maps.taskMap.lookup nextKey with
      | none => (maps, .getNextKey nextKey)
      | some data => (maps, .lookupBin key nextKey data)
  | .lookupBin key nextKey data =>
      match maps.taskBinMap.lookup nextKey with
      | some _ => (maps, if data.isInvalid then .deleteBin key nextKey else .getNextKey nextKey)
      | none => (maps, if data.isInvalid then .delete key nextKey else .updateBin nextKey)
  | .deleteBin key nextKey =>
      ({ maps with taskBinMap := maps.taskBinMap.delete nextKey }, .delete key nextKey)
  | .updateBin nextKey =>
      ({ maps with taskBinMap := (maps.taskBinMap.update nextKey {}).getD maps.taskBinMap }, .getNextKey nextKey)
  | .delete key nextKey => ({ maps with taskMap := maps.taskMap.delete nextKey }, .getNextKey key)
  | .returned => (maps, .getNextKey 0)

/-- The pid of an entry that was found invalid and is not deleted yet. -/
def Pull.pending : Pull → Option TaskKey
  | .lookupBin _ nextKey data => if data.isInvalid then some nextKey else none
  | .deleteBin _ nextKey | .delete _ nextKey => some nextKey
  | .getNextKey _ | .lookup _ _ | .updateBin _ | .returned => none

/-- The maps and the loop, beside the tasks that there are: each has a number
of its own. -/
structure World where
  maps : Maps
  pull : Pull := .getNextKey 0
  alive : TaskKey → Option Nat
  /-- The task that the entry of a pid was written for. -/
  owner : TaskKey → Option Nat
  tasks : Nat
  /-- A child on the list got the pending pid, and has not exited. -/
  revived : Bool := false

inductive Event where
  | fork (flag : Bool) (parent child : TaskStruct)
  | exit (pid : TaskKey)
  | pull (walk : Enumeration TaskKey TaskData shareMapTaskMaxEntries)

namespace World

/-- A pid is given to one task at a time, and a parent is alive.  Pid 0 is that
of the idle tasks, which are not forked and do not fork. -/
def fork (world : World) (flag : Bool) (parent child : TaskStruct) : World :=
  if child.pid = 0 ∨ parent.pid = 0 ∨ (world.alive child.pid).isSome ∨ (world.alive parent.pid).isNone then
    world
  else
    let taskMap := world.maps.taskMap
    let newParent := flag ∧ ((addChild taskMap parent child).lookup parent.pid).isNone
    let owner := if flag then Function.update world.owner child.pid (some world.tasks) else world.owner
    { world with
      maps.taskMap := schedProcessFork taskMap flag parent child
      alive := Function.update world.alive child.pid (some world.tasks)
      owner := if newParent then Function.update owner parent.pid (world.alive parent.pid) else owner
      tasks := world.tasks + 1
      revived := world.revived || (flag && world.pull.pending = some child.pid) }

def exit (world : World) (pid : TaskKey) : World :=
  if (world.alive pid).isNone then
    world
  else
    { world with
      maps.taskMap := schedProcessExit world.maps.taskMap pid
      alive := Function.update world.alive pid none
      revived := world.revived && world.pull.pending ≠ some pid }

def step (world : World) : Event → World
  | .fork flag parent child => world.fork flag parent child
  | .exit pid => world.exit pid
  | .pull walk =>
      let after := pullStep walk world.maps world.pull
      { world with
        maps := after.1
        pull := after.2
        revived := world.revived && world.pull.pending.isSome }

/-- The task that the entry was written for has the pid now. -/
def Lives (world : World) (pid : TaskKey) : Prop := ∃ task, world.alive pid = some task ∧ world.owner pid = some task

end World

end GalaGopher.Ebpf.TaskProbe
