import GalaGopher.Data.KeyedList
import GalaGopher.Data.Lanes
import GalaGopher.Data.LastWrite
import GalaGopher.Text.Bytes

namespace GalaGopher.Ebpf.Containerd

open Data Text

/-! The containers that containerd starts and deletes, from the uprobes to the
hash table of the probe. -/

def containerIdLen : Nat := 64

def taskCommLen : Nat := 16

/-- `struct container_evt_s`, as a read of at most 65 bytes leaves the id. -/
structure ContainerEvt where
  containerId : Bytes
  short : containerId.length ≤ containerIdLen
  taskPid : UInt32 := 0
  tgid : Int32 := 0
  comm : Bytes := []
  crtOrDel : UInt32 := 0
deriving DecidableEq

/-- A container as `linux.Task` has it, and the process that starts it. -/
structure Container where
  id : Bytes
  short : id.length ≤ containerIdLen
  pid : UInt32
  tgid : Int32
  comm : Bytes

def linuxTaskStart (task : Container) : ContainerEvt where
  containerId := task.id
  short := task.short
  taskPid := task.pid
  tgid := task.tgid
  comm := task.comm

def linuxTaskDelete (task : Container) : ContainerEvt where
  containerId := task.id
  short := task.short
  crtOrDel := 1

/-- `struct container_hash_t`, with the values that an event sets. -/
structure ContainerItem where
  containerId : Bytes
  taskPid : UInt32 := 0
  tgid : Int32 := 0
  comm : Bytes := []
deriving DecidableEq

def addContainer (containerId : Bytes) (table : List ContainerItem) : List ContainerItem :=
  table ++ [{ containerId := containerId.take containerIdLen }]

def findContainer (containerId : Bytes) (table : List ContainerItem) : Option ContainerItem :=
  KeyedList.find? ContainerItem.containerId containerId table

def deleteContainer (containerId : Bytes) (table : List ContainerItem) : List ContainerItem :=
  match findContainer containerId table with
  | none => table
  | some _ => KeyedList.remove ContainerItem.containerId containerId table

/-- The values of the item found, set from an event. -/
def setValue (evt : ContainerEvt) (table : List ContainerItem) : List ContainerItem :=
  table.map fun item =>
    if item.containerId = evt.containerId then
      { item with taskPid := evt.taskPid, tgid := evt.tgid, comm := evt.comm.take (taskCommLen - 1) }
    else
      item

/-- `malloc` may find no memory for a new item. -/
def procContainerEvt (allocated : Bool) (table : List ContainerItem) (evt : ContainerEvt) : List ContainerItem :=
  match findContainer evt.containerId table with
  | none =>
      if evt.crtOrDel = 0 then
        if allocated then setValue evt (addContainer evt.containerId table) else table
      else
        table
  | some _ =>
      if evt.crtOrDel = 0 then setValue evt table else deleteContainer evt.containerId table

inductive Move (Cpu : Type) where
  | start (cpu : Cpu) (task : Container)
  | delete (cpu : Cpu) (task : Container)
  | poll (cpu : Cpu) (allocated : Bool)

/-- The event that a move puts into the buffer of its CPU. -/
def Move.evt {Cpu : Type} : Move Cpu → Option (Cpu × ContainerEvt)
  | .start cpu task => some (cpu, linuxTaskStart task)
  | .delete cpu task => some (cpu, linuxTaskDelete task)
  | .poll .. => none

structure System (Cpu : Type) where
  buffers : Lanes Cpu ContainerEvt := {}
  table : List ContainerItem := []

variable {Cpu : Type} [DecidableEq Cpu]

def System.step (system : System Cpu) : Move Cpu → System Cpu
  | .start cpu task => { system with buffers := system.buffers.give cpu (linuxTaskStart task) }
  | .delete cpu task => { system with buffers := system.buffers.give cpu (linuxTaskDelete task) }
  | .poll cpu allocated =>
      match system.buffers.pending cpu with
      | [] => system
      | evt :: _ => { buffers := system.buffers.take cpu, table := procContainerEvt allocated system.table evt }

def System.run (moves : List (Move Cpu)) : System Cpu := moves.foldl step {}

/-- The events in the order in which they happened. -/
def history (moves : List (Move Cpu)) : List (Cpu × ContainerEvt) := moves.filterMap Move.evt

/-- The events in the order in which they were handled. -/
def System.handled (system : System Cpu) : List ContainerEvt := system.buffers.taken.map Prod.snd

end GalaGopher.Ebpf.Containerd
