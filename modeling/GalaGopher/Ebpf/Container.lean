import GalaGopher.Data.CursorWalk
import GalaGopher.Text.Options
import GalaGopher.Text.Search

namespace GalaGopher.Ebpf.Container

open Data Text

def containerIdLen : Nat := 64

def podNameLen : Nat := 64

def taskCommLen : Nat := 16

def errMsg : Bytes := ascii "No such file or directory"

def dockerStatsRunning : Bytes := ascii "running"

def dockerStatsRestarting : Bytes := ascii "restarting"

inductive ContainerStatus where
  | running
  | restarting
  | stop
deriving DecidableEq

structure ContainerInfo where
  pid : UInt32 := 0
  netns : UInt32 := 0
  mntns : UInt32 := 0
  cgroup : UInt32 := 0
  status : ContainerStatus := .running
  pod : CharArray podNameLen := .ofText _ []
  comm : CharArray taskCommLen := .ofText _ []
  abbrContainerId : CharArray (containerIdLen + 1) := .ofText _ []
  containerId : CharArray (containerIdLen + 1) := .ofText _ []

/-- The commands: an inspection of one container in one format, or a look at
the `/proc` of one process. -/
inductive Query where
  | pid (id : Bytes)
  | fullId (id : Bytes)
  | status (id : Bytes)
  | pod (id : Bytes)
  | comm (pid : UInt32)
  | netns (pid : UInt32)
  | cgroup (pid : UInt32)
  | mntns (pid : UInt32)

/-- The first line of what a command prints, without its newline, if it runs
and prints at all. -/
abbrev Results := Query → Option Bytes

/-- What the commands print at each turn of a loop. -/
abbrev Answers := Nat → Results

def getContainerCount (lines : List Bytes) : Nat :=
  (lines.takeWhile fun line => (strstr line errMsg).isNone).length

def newContainer (line : Bytes) : ContainerInfo := { abbrContainerId := .ofText _ line }

/-- Every line ends with a newline, so that too few of them end in a read of
nothing. -/
def getContainersId (num : Nat) : Option (List Bytes) → Option (List ContainerInfo)
  | none => none
  | some lines => if lines.length < num then none else some ((lines.take num).map newContainer)

/-- The table before the attributes are read. -/
def newTable (counted listed : Option (List Bytes)) : Option (List ContainerInfo) :=
  let containerNum := (counted.map getContainerCount).getD 0
  if containerNum = 0 then none else getContainersId containerNum listed

-- The attributes. Each pass goes over the table with an index and a pointer,
-- and `continue` moves the index alone.

def answered (query : ContainerInfo → Query) (store : ContainerInfo → Bytes → ContainerInfo) (results : Results)
    (p : ContainerInfo) : Option ContainerInfo :=
  (results (query p)).map (store p)

def ifRunning (visit : ContainerInfo → Option ContainerInfo) (p : ContainerInfo) : Option ContainerInfo :=
  if p.status = .running then visit p else none

def visitPid : Results → ContainerInfo → Option ContainerInfo :=
  answered (fun p => .pid p.abbrContainerId.text) fun p line => { p with pid := (atoi line).toUInt32 }

def visitId : Results → ContainerInfo → Option ContainerInfo :=
  answered (fun p => .fullId p.abbrContainerId.text) fun p line => { p with containerId := .ofText _ line }

def containersStatus (status : Bytes) : ContainerStatus :=
  if (strstr status dockerStatsRunning).isSome then .running
  else if (strstr status dockerStatsRestarting).isSome then .restarting
  else .stop

def visitStatus : Results → ContainerInfo → Option ContainerInfo :=
  answered (fun p => .status p.abbrContainerId.text) fun p line => { p with status := containersStatus line }

def visitComm (results : Results) : ContainerInfo → Option ContainerInfo :=
  ifRunning (answered (fun p => .comm p.pid) (fun p line => { p with comm := .ofText _ line }) results)

def visitPod (results : Results) : ContainerInfo → Option ContainerInfo :=
  ifRunning (answered (fun p => .pod p.abbrContainerId.text) (fun p line => { p with pod := .ofText _ line }) results)

/-- The -1 of a query that fails is returned as an unsigned number. -/
def getPidNamespace : Option Bytes → UInt32
  | none => 4294967295
  | some line => UInt32.ofNat (strtoul line)

/-- The number is stored unless it is 0, and the pointer moves on in any case. -/
def namespaced (query : UInt32 → Query) (store : ContainerInfo → UInt32 → ContainerInfo) (results : Results)
    (p : ContainerInfo) : Option ContainerInfo :=
  let number := getPidNamespace (results (query p.pid))
  some (if number > 0 then store p number else p)

def visitNetns (results : Results) : ContainerInfo → Option ContainerInfo :=
  ifRunning (namespaced .netns (fun p netns => { p with netns }) results)

def visitCgroup (results : Results) : ContainerInfo → Option ContainerInfo :=
  ifRunning (namespaced .cgroup (fun p cgroup => { p with cgroup }) results)

def visitMntns (results : Results) : ContainerInfo → Option ContainerInfo :=
  ifRunning (namespaced .mntns (fun p mntns => { p with mntns }) results)

def passOver (visit : Results → ContainerInfo → Option ContainerInfo) (answers : Answers) :
    List ContainerInfo → List ContainerInfo :=
  pass fun turn => visit (answers turn)

def getContainersPid := passOver visitPid
def getContainersIds := passOver visitId
def getContainersStatus := passOver visitStatus
def getContainersComm := passOver visitComm
def getContainersNetns := passOver visitNetns
def getContainersCgroup := passOver visitCgroup
def getContainersMntns := passOver visitMntns
def getContainersPod := passOver visitPod

def getAttributes (answers : Answers) (cstbl : List ContainerInfo) : List ContainerInfo :=
  let cstbl := getContainersPid answers cstbl
  let cstbl := getContainersIds answers cstbl
  let cstbl := getContainersStatus answers cstbl
  let cstbl := getContainersComm answers cstbl
  let cstbl := getContainersNetns answers cstbl
  let cstbl := getContainersCgroup answers cstbl
  let cstbl := getContainersMntns answers cstbl
  getContainersPod answers cstbl

def getAllContainer (counted listed : Option (List Bytes)) (answers : Answers) : Option (List ContainerInfo) :=
  (newTable counted listed).map (getAttributes answers)

/-- The key, `task_pid` and `cgpid` of a `container_hash_t`. -/
structure ContainerItem where
  containerId : Bytes
  taskPid : UInt32
  cgpid : UInt32

def ContainerInfo.item (p : ContainerInfo) : ContainerItem := ⟨p.containerId.text, p.pid, p.cgroup⟩

/-- The loop of `update_current_containers_info`, with the same `continue`. -/
def addContainers : Nat → List ContainerInfo → List ContainerItem
  | 0, _ => []
  | _ + 1, [] => []
  | turns + 1, p :: rest =>
      if p.status = .running then p.item :: addContainers turns rest
      else addContainers turns (p :: rest)

def updateCurrentContainersInfo (head : List ContainerItem) : Option (List ContainerInfo) → List ContainerItem
  | none => head
  | some cstbl => head ++ addContainers cstbl.length cstbl

end GalaGopher.Ebpf.Container
