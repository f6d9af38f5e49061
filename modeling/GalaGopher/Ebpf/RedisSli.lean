import GalaGopher.Data.BoundedMap
import GalaGopher.Text.Bytes

namespace GalaGopher.Ebpf.RedisSli

open Data Text

/-! The uprobes on redis that sample one command of each connection and
period. -/

def maxRedisCmdLen : Nat := 24

def maxConnLen : Nat := 8192

def probeMatchMapMaxEntries : Nat := 1000

structure ConnKey where
  tgid : UInt32
  fd : Int32
deriving DecidableEq

structure ConnId where
  tgid : UInt32
  fd : Int32
  tsNsec : UInt64
deriving DecidableEq

def ConnId.key (id : ConnId) : ConnKey := { tgid := id.tgid, fd := id.fd }

inductive ReplyStore where
  | noStorage
  | staticBuffer
  | dynamicList
deriving DecidableEq, Repr

structure RedisCmdData where
  name : CharArray maxRedisCmdLen := .ofText maxRedisCmdLen []
  startTsNsec : UInt64 := 0
  endTsNsec : UInt64 := 0
  hasReply : Bool := false
  storeType : ReplyStore := .noStorage
  /-- `wr_bufpos` and `wr_listpos` are one union. -/
  wrPos : UInt64 := 0
  finished : Bool := false

structure ConnData where
  id : ConnId
  lastReadTsNsec : UInt64 := 0
  lastSmpTsNsec : UInt64
  rdBufsize : UInt64 := 0
  rdListsize : UInt64 := 0
  curBufpos : UInt64 := 0
  curListpos : UInt64 := 0
  cmdNums : UInt32 := 0
  cmd : RedisCmdData := {}

structure CmdEventData where
  connId : ConnId
  name : CharArray maxRedisCmdLen
  timeoutNsec : UInt64
deriving DecidableEq

abbrev ClientPtr := UInt64

/-- What the probes read through a `client *`.  `name` is the string behind
`argv[0]`, empty where it cannot be read. -/
structure Client where
  fd : Int32
  bufpos : Int32
  replyBytes : UInt64
  name : Bytes

/-- `u64 cur_bufpos = c->bufpos` -/
def Client.curBufpos (client : Client) : UInt64 := client.bufpos.toInt64.toUInt64

inductive Prog where
  | processCommand
  | writeToClient
deriving DecidableEq

inductive Hook where
  /-- `created` and `sampled` are the later readings of the clock. -/
  | readQueryFromClient (client : ClientPtr) (created sampled : UInt64)
  | processCommand (client : ClientPtr)
  | processCommandReturn
  | writeToClient (client : ClientPtr)
  | writeToClientReturn
  | freeClient (client : ClientPtr)

/-- A hook that runs: in which thread, at what time, and what redis and
`period_map` hold then. -/
structure Event where
  tgid : UInt32
  ctxId : UInt32
  tsNsec : UInt64
  memory : ClientPtr → Client
  period : Option UInt64
  hook : Hook

/-- The maps of the probe, with what it has sent through `conn_cmd_evt_map`. -/
structure Redissli where
  connMap : BoundedMap ConnKey ConnData maxConnLen := .empty
  probeMatchMap : BoundedMap (UInt32 × Prog) ClientPtr probeMatchMapMaxEntries := .empty
  connCmdEvtMap : List CmdEventData := []

/-- `init_conn_key` for a client of the current process -/
def Event.connKey (event : Event) (client : ClientPtr) : ConnKey :=
  { tgid := event.tgid, fd := (event.memory client).fd }

def getPeriod (value : Option UInt64) : UInt64 := value.getD (30 * 1000000000)

def ConnData.readQueryFromClient (connData : ConnData) (tsNsec : UInt64) : ConnData :=
  if connData.cmdNums > 0 then
    connData
  else
    { connData with lastReadTsNsec := tsNsec, rdBufsize := 0, rdListsize := 0 }

def ConnData.processCommand (connData : ConnData) (client : Client) : ConnData :=
  { connData with
    cmd :=
      { connData.cmd with
        name := .ofText maxRedisCmdLen client.name
        startTsNsec := connData.lastReadTsNsec
        finished := false }
    cmdNums := 1
    curBufpos := client.curBufpos
    curListpos := client.replyBytes }

def ConnData.processCommandReturn (connData : ConnData) (tsNsec : UInt64) (client : Client) : ConnData :=
  if connData.curBufpos < client.curBufpos then
    { connData with
      cmd := { connData.cmd with hasReply := true, storeType := .staticBuffer, wrPos := client.curBufpos } }
  else if connData.curListpos < client.replyBytes then
    { connData with
      cmd := { connData.cmd with hasReply := true, storeType := .dynamicList, wrPos := client.replyBytes } }
  else
    { connData with
      cmd :=
        { connData.cmd with
          hasReply := false, storeType := .noStorage, endTsNsec := tsNsec, finished := true } }

def ConnData.writeToClient (connData : ConnData) (client : Client) : ConnData :=
  { connData with curBufpos := client.curBufpos, curListpos := client.replyBytes }

/-- The reply bytes that a write has taken. -/
def ConnData.taken (connData : ConnData) (client : Client) : ConnData :=
  { connData with
    rdBufsize :=
      if client.curBufpos < connData.curBufpos then
        connData.rdBufsize + (connData.curBufpos - client.curBufpos)
      else
        connData.rdBufsize
    rdListsize :=
      if client.replyBytes < connData.curListpos then
        connData.rdListsize + (connData.curListpos - client.replyBytes)
      else
        connData.rdListsize }

/-- Whether the reply has left whole. -/
def ConnData.written (connData : ConnData) : Bool :=
  match connData.cmd.storeType with
  | .noStorage => false
  | .staticBuffer => connData.cmd.wrPos ≤ connData.rdBufsize
  | .dynamicList => connData.cmd.wrPos ≤ connData.rdListsize

def ConnData.finish (connData : ConnData) (tsNsec : UInt64) : ConnData :=
  if !connData.cmd.finished && connData.written then
    { connData with cmd := { connData.cmd with endTsNsec := tsNsec, finished := true } }
  else
    connData

def submitConnCmdEvent (connData : ConnData) : CmdEventData :=
  { connId := connData.id
    name := connData.cmd.name
    timeoutNsec := connData.cmd.endTsNsec - connData.cmd.startTsNsec }

/-- The sampling period, once a command is sampled. -/
def ConnData.sample (connData : ConnData) (tsNsec period : UInt64) : ConnData × Option CmdEventData :=
  if tsNsec - connData.lastSmpTsNsec > period then
    ({ connData with lastSmpTsNsec := tsNsec, cmdNums := 0 },
      if connData.cmd.finished then some (submitConnCmdEvent connData) else none)
  else
    (connData, none)

def ConnData.writeToClientReturn (connData : ConnData) (tsNsec : UInt64) (client : Client)
    (period : UInt64) : ConnData × Option CmdEventData :=
  let connData := connData.taken client
  if connData.cmdNums = 0 then
    (connData, none)
  else
    (connData.finish tsNsec).sample tsNsec period

section

variable (connData : ConnData) (tsNsec : UInt64)

@[simp] theorem ConnData.readQueryFromClient_id : (connData.readQueryFromClient tsNsec).id = connData.id := by
  unfold readQueryFromClient
  split <;> rfl

@[simp] theorem ConnData.processCommandReturn_id (client : Client) :
    (connData.processCommandReturn tsNsec client).id = connData.id := by
  unfold processCommandReturn
  split
  case isTrue => rfl
  case isFalse => split <;> rfl

@[simp] theorem ConnData.finish_id : (connData.finish tsNsec).id = connData.id := by
  unfold finish
  split <;> rfl

@[simp] theorem ConnData.finish_cmdNums : (connData.finish tsNsec).cmdNums = connData.cmdNums := by
  unfold finish
  split <;> rfl

end

namespace Redissli

/-- `create_conn_from_client`; a full map keeps what it has. -/
def createConnFromClient (probe : Redissli) (key : ConnKey) (created sampled : UInt64) : Redissli :=
  let connData : ConnData :=
    { id := { tgid := key.tgid, fd := key.fd, tsNsec := created }, lastSmpTsNsec := sampled }
  { probe with connMap := (probe.connMap.update key connData).getD probe.connMap }

def modifyConn (probe : Redissli) (key : ConnKey) (change : ConnData → ConnData) : Redissli :=
  { probe with connMap := probe.connMap.modify key change }

def uprobeParmsStash (probe : Redissli) (event : Event) (prog : Prog) (client : ClientPtr) : Redissli :=
  { probe with
    probeMatchMap := (probe.probeMatchMap.update (event.ctxId, prog) client).getD probe.probeMatchMap }

def probeGetParms (probe : Redissli) (event : Event) (prog : Prog) : Option (Redissli × ClientPtr) :=
  (probe.probeMatchMap.lookup (event.ctxId, prog)).map fun client =>
    ({ probe with probeMatchMap := probe.probeMatchMap.delete (event.ctxId, prog) }, client)

def submit (probe : Redissli) (submitted : Option CmdEventData) : Redissli :=
  { probe with connCmdEvtMap := probe.connCmdEvtMap ++ submitted.toList }

def readQueryFromClient (probe : Redissli) (event : Event) (client : ClientPtr)
    (created sampled : UInt64) : Redissli :=
  let key := event.connKey client
  let probe :=
    match probe.connMap.lookup key with
    | some _ => probe
    | none => probe.createConnFromClient key created sampled
  probe.modifyConn key fun connData => connData.readQueryFromClient event.tsNsec

def processCommand (probe : Redissli) (event : Event) (client : ClientPtr) : Redissli :=
  let key := event.connKey client
  match probe.connMap.lookup key with
  | none => probe
  | some connData =>
      if connData.cmdNums > 0 then
        probe
      else
        (probe.modifyConn key fun connData => connData.processCommand (event.memory client)).uprobeParmsStash
          event .processCommand client

def processCommandReturn (probe : Redissli) (event : Event) : Redissli :=
  match probe.probeGetParms event .processCommand with
  | none => probe
  | some (probe, client) =>
      probe.modifyConn (event.connKey client) fun connData =>
        connData.processCommandReturn event.tsNsec (event.memory client)

def writeToClient (probe : Redissli) (event : Event) (client : ClientPtr) : Redissli :=
  let key := event.connKey client
  match probe.connMap.lookup key with
  | none => probe
  | some _ =>
      (probe.modifyConn key fun connData => connData.writeToClient (event.memory client)).uprobeParmsStash
        event .writeToClient client

def writeToClientReturn (probe : Redissli) (event : Event) : Redissli :=
  match probe.probeGetParms event .writeToClient with
  | none => probe
  | some (probe, client) =>
      let key := event.connKey client
      match probe.connMap.lookup key with
      | none => probe
      | some connData =>
          let (connData, submitted) :=
            connData.writeToClientReturn event.tsNsec (event.memory client) (getPeriod event.period)
          (probe.modifyConn key fun _ => connData).submit submitted

def freeClient (probe : Redissli) (event : Event) (client : ClientPtr) : Redissli :=
  let key := event.connKey client
  match probe.connMap.lookup key with
  | none => probe
  | some connData =>
      let submitted :=
        if connData.cmdNums > 0 ∧ connData.cmd.finished then some (submitConnCmdEvent connData) else none
      { probe.submit submitted with connMap := probe.connMap.delete key }

def step (probe : Redissli) (event : Event) : Redissli :=
  match event.hook with
  | .readQueryFromClient client created sampled => probe.readQueryFromClient event client created sampled
  | .processCommand client => probe.processCommand event client
  | .processCommandReturn => probe.processCommandReturn event
  | .writeToClient client => probe.writeToClient event client
  | .writeToClientReturn => probe.writeToClientReturn event
  | .freeClient client => probe.freeClient event client

def run (events : List Event) : Redissli := events.foldl step {}

end Redissli

end GalaGopher.Ebpf.RedisSli
