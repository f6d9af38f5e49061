import GalaGopher.Data.BoundedMap
import GalaGopher.Ebpf.TcpProbe.Metrics

namespace GalaGopher.Ebpf

open Data

inductive ByteOrder where
  | little
  | big
deriving DecidableEq

def swapBytes (half : UInt16) : UInt16 := (half >>> 8) ||| (half <<< 8)

def bpfNtohs (host : ByteOrder) (half : UInt16) : UInt16 :=
  match host with
  | .little => swapBytes half
  | .big => half

def linkRoleServer : UInt32 := 0

def linkRoleClient : UInt32 := 1

def afInet : UInt16 := 2

def tcpEstablished : UInt16 := 1
def tcpSynSent : UInt16 := 2
def tcpSynRecv : UInt16 := 3
def tcpFinWait1 : UInt16 := 4
def tcpClose : UInt16 := 7
def tcpCloseWait : UInt16 := 8

abbrev SockPtr := UInt64

structure TcpSockInfo where
  role : UInt32 := 0
  synSrtt : UInt32 := 0
  tgid : UInt32 := 0

structure TcpFdInfo where
  fds : Vector Int32 10
  fdRole : Vector UInt8 10

structure TcpArgs where
  period : UInt64
  cportFlag : UInt32
  filterByTask : UInt32
  filterByTgid : UInt32

/-- The unions of `struct tcp_link_s`; an IPv4 address is kept as it lies in
memory. -/
inductive Address where
  | ip (addr : UInt32)
  | ip6 (bytes : Vector UInt8 16)
deriving DecidableEq

structure TcpLink where
  tgid : UInt32 := 0
  cIp : Address := .ip 0
  sIp : Address := .ip 0
  sPort : UInt16 := 0
  cPort : UInt16 := 0
  family : UInt16 := 0
  cFlag : UInt16 := 0
  role : UInt32 := 0
deriving DecidableEq

structure TcpMetrics where
  ts : UInt64
  link : TcpLink
  data : TcpStatistics

def tcpTupleMax : Nat := 10 * 1024

def tcpLinkMax : Nat := 10 * 1024

def tcpFdMax : Nat := 50

/-- The maps of the probe, the pids of the shared task map, and what went out
on the perf buffer. -/
structure TcpProbe where
  sockMap : BoundedMap SockPtr TcpSockInfo tcpTupleMax
  linkMap : BoundedMap TcpLink TcpMetrics tcpLinkMax
  fdMap : BoundedMap UInt32 TcpFdInfo tcpFdMax
  args : Option TcpArgs
  tasks : UInt32 → Bool
  output : List TcpMetrics

/-- What a hook finds: a socket and its contents, the running task, and the
clock wherever it is read. -/
structure HookContext where
  skPtr : SockPtr
  sk : Sock
  tgid : UInt32
  sockByFd : Int32 → SockPtr
  createdAt : UInt64
  readAt : UInt64
  reportedAt : UInt64

namespace TcpProbe

def getCportFlag (probe : TcpProbe) : UInt16 :=
  match probe.args with
  | some args => args.cportFlag.toUInt16
  | none => 0

def isValidTgid (probe : TcpProbe) (tgid : UInt32) : Bool :=
  match probe.args with
  | some args =>
      if args.filterByTask ≠ 0 then probe.tasks tgid
      else if args.filterByTgid ≠ 0 then args.filterByTgid = tgid
      else true
  | none => true

/-- The addresses and ports of a link, by the role of the socket.  The IPv6 ones
are those `bpf_probe_read_user` gets of the kernel's socket, which may be zero. -/
def linkOfRole (host : ByteOrder) (role : UInt32) (cportFlag : UInt16) (sk : Sock) : TcpLink :=
  let link : TcpLink := { cFlag := cportFlag, family := sk.skFamily }
  if role = linkRoleClient then
    let link :=
      if link.family = afInet then
        { link with cIp := .ip sk.skRcvSaddr, sIp := .ip sk.skDaddr }
      else
        { link with cIp := .ip6 sk.skV6RcvSaddr, sIp := .ip6 sk.skV6Daddr }
    { link with
      sPort := bpfNtohs host sk.skDport
      cPort := if link.cFlag = 1 then bpfNtohs host sk.skNum else 0 }
  else
    let link :=
      if link.family = afInet then
        { link with sIp := .ip sk.skRcvSaddr, cIp := .ip sk.skDaddr }
      else
        { link with sIp := .ip6 sk.skV6RcvSaddr, cIp := .ip6 sk.skV6Daddr }
    { link with
      sPort := sk.skNum
      cPort := if link.cFlag = 1 then bpfNtohs host sk.skDport else 0 }

/-- The key with the `syn_srtt` of its socket, or `none` for -1. -/
def getTcpLinkKey (probe : TcpProbe) (host : ByteOrder) (skPtr : SockPtr) (sk : Sock) :
    Option (TcpLink × UInt32) :=
  if skPtr = 0 then
    none
  else
    match probe.sockMap.lookup skPtr with
    | none => none
    | some sockData =>
        if sockData.tgid = 0 then none
        else if !probe.isValidTgid sockData.tgid then none
        else
          let link := linkOfRole host sockData.role probe.getCportFlag sk
          some ({ link with role := sockData.role, tgid := sockData.tgid }, sockData.synSrtt)

def createTcpLink (probe : TcpProbe) (link : TcpLink) (synSrtt : UInt32) (now : UInt64) :
    Option TcpProbe :=
  let metrics : TcpMetrics := { ts := now, link, data := { synStatus.synSrttLast := synSrtt } }
  (probe.linkMap.update link metrics).map fun linkMap => { probe with linkMap }

def deleteTcpLink (probe : TcpProbe) (host : ByteOrder) (skPtr : SockPtr) (sk : Sock) : TcpProbe :=
  let link : TcpLink := {}
  if link.cFlag = 0 then
    probe
  else
    match probe.getTcpLinkKey host skPtr sk with
    | none => probe
    | some (link, _) => { probe with linkMap := probe.linkMap.delete link }

/-- The entry of the socket's link and whether it is new. -/
def getTcpMetrics (probe : TcpProbe) (host : ByteOrder) (context : HookContext) :
    TcpProbe × Option (TcpMetrics × Bool) :=
  match probe.getTcpLinkKey host context.skPtr context.sk with
  | none => (probe, none)
  | some (link, synSrtt) =>
      match probe.linkMap.lookup link with
      | some _ =>
          let refresh (metrics : TcpMetrics) : TcpMetrics :=
            if link.role = linkRoleServer then
              { metrics with data.synStatus.synSrttLast := synSrtt }
            else
              metrics
          let probe := { probe with linkMap := probe.linkMap.modify link refresh }
          (probe, (probe.linkMap.lookup link).map (·, false))
      | none =>
          match probe.createTcpLink link synSrtt context.createdAt with
          | none => (probe, none)
          | some created => (created, (created.linkMap.lookup link).map (·, true))

def createSockObj (probe : TcpProbe) (tgid : UInt32) (skPtr : SockPtr) (info : TcpSockInfo) : TcpProbe :=
  match probe.sockMap.update skPtr { info with tgid } with
  | some sockMap => { probe with sockMap }
  | none => probe

def deleteSockObj (probe : TcpProbe) (skPtr : SockPtr) : TcpProbe :=
  { probe with sockMap := probe.sockMap.delete skPtr }

def updateSockObj (probe : TcpProbe) (skPtr : SockPtr) (tgid : UInt32) : TcpProbe :=
  { probe with sockMap := probe.sockMap.modify skPtr fun info => { info with tgid } }

/-- `__PERIOD` -/
def defaultPeriod : UInt64 := 30 * 1000000000

def getPeriod (probe : TcpProbe) : UInt64 :=
  match probe.args with
  | some args => args.period
  | none => defaultPeriod

/-- The entry as `report` leaves it, and what it puts out. -/
def report (metrics : TcpMetrics) (newEntry : Bool) (now period : UInt64) :
    TcpMetrics × Option TcpMetrics :=
  if newEntry then
    ({ metrics with data := metrics.data.clear }, some metrics)
  else if now > metrics.ts ∧ now - metrics.ts < period then
    (metrics, none)
  else
    let metrics := { metrics with ts := now }
    ({ metrics with data := metrics.data.clear }, some metrics)

def doLoadTcpFd (probe : TcpProbe) (context : HookContext) (fd : Int32) (info : TcpSockInfo) : TcpProbe :=
  if fd = 0 then
    probe
  else
    let skPtr := context.sockByFd fd
    if skPtr = 0 then probe else probe.createSockObj context.tgid skPtr info

/-- One turn of the loop over the descriptors of a process. -/
def loadSlot (context : HookContext) (probe : TcpProbe) (slot : Int32 × UInt8) : TcpProbe :=
  probe.doLoadTcpFd context slot.1 { role := slot.2.toUInt32, synSrtt := 0, tgid := context.tgid }

def loadTcpFd (probe : TcpProbe) (context : HookContext) : TcpProbe :=
  match probe.fdMap.lookup context.tgid with
  | none => probe
  | some fdInfo =>
      let loaded := (fdInfo.fds.toList.zip fdInfo.fdRole.toList).foldl (loadSlot context) probe
      { loaded with fdMap := loaded.fdMap.delete context.tgid }

/-- What every counting hook does with the entry of its socket's link. -/
def withMetrics (probe : TcpProbe) (host : ByteOrder) (context : HookContext)
    (change : TcpStatistics → TcpStatistics) : TcpProbe :=
  match probe.getTcpMetrics host context with
  | (probe, none) => probe
  | (probe, some (metrics, newEntry)) =>
      let changed := { metrics with data := change metrics.data }
      let (kept, emitted) := report changed newEntry context.reportedAt probe.getPeriod
      { probe with
        linkMap := probe.linkMap.modify metrics.link fun _ => kept
        output := probe.output ++ emitted.toList }

variable (probe : TcpProbe) (host : ByteOrder) (context : HookContext)

def tcpSetState (newState : UInt16) : TcpProbe :=
  let oldState := context.sk.skState.toUInt16
  let probe :=
    if oldState = tcpSynSent ∧ newState = tcpEstablished then
      probe.createSockObj 0 context.skPtr { role := linkRoleClient }
    else
      probe
  let probe :=
    if oldState = tcpSynRecv ∧ newState = tcpEstablished then
      probe.createSockObj 0 context.skPtr { role := linkRoleServer, synSrtt := context.sk.srttUs >>> 3 }
    else
      probe
  if newState = tcpClose ∨ newState = tcpCloseWait ∨ newState = tcpFinWait1 then
    probe.deleteTcpLink host context.skPtr context.sk
  else
    probe

def tcpDestroySock (skPtr : SockPtr) : TcpProbe := probe.deleteSockObj skPtr

def ownSock : TcpProbe := (probe.loadTcpFd context).updateSockObj context.skPtr context.tgid

def tcpSendmsg (size : UInt64) : TcpProbe :=
  (probe.ownSock context).withMetrics host context fun data =>
    (data.add .tx size).read context.sk context.readAt

def tcpRecvmsg : TcpProbe :=
  (probe.ownSock context).withMetrics host context (·.read context.sk context.readAt)

/-- A hook that adds to one counter. -/
def countEvent (counter : Counter) (delta : UInt64) : TcpProbe :=
  probe.withMetrics host context (·.add counter delta)

/-- `tcp_add_backlog` and the other return probes find the socket of the call
among the stashed parameters, or nothing. -/
def tcpAddBacklog (discard : Bool) (stashed : Option HookContext) : TcpProbe :=
  match stashed with
  | none => probe
  | some context => if discard then probe.countEvent host context .backlogDrops 1 else probe

def tcpFilter (discard : Bool) (stashed : Option HookContext) : TcpProbe :=
  match stashed with
  | none => probe
  | some context => if discard then probe.countEvent host context .filterDrops 1 else probe

def tcpWriteErr : TcpProbe := probe.countEvent host context .tmout 1

def tcpCleanupRbuf (copied : Int32) : TcpProbe :=
  if copied ≤ 0 then probe else probe.countEvent host context .rx copied.toInt64.toUInt64

def sockExceedBufLimit : TcpProbe := probe.countEvent host context .sndbufLimit 1

def tcpSendReset : TcpProbe := probe.countEvent host context .sendRsts 1

def tcpReceiveReset : TcpProbe := probe.countEvent host context .receiveRsts 1

def tcpRetransmitSkb (segs : Int32) : TcpProbe :=
  probe.countEvent host context .totalRetrans segs.toInt64.toUInt64

def tcpDone : TcpProbe :=
  let state := context.sk.skState.toUInt16
  if state = tcpSynSent ∨ state = tcpSynRecv then
    probe.countEvent host context .attemptFails 1
  else
    probe

def tcpTryRmemSchedule (ret : Int32) (stashed : Option HookContext) : TcpProbe :=
  match stashed with
  | none => probe
  | some context =>
      if ret = 0 then probe
      else if context.skPtr = 0 then probe
      else probe.countEvent host context .rmemScheduls 1

def tcpCheckOom (ret : Bool) (stashed : Option HookContext) : TcpProbe :=
  match stashed with
  | none => probe
  | some context =>
      if !ret then probe
      else if context.skPtr = 0 then probe
      else probe.countEvent host context .tcpOom 1

end TcpProbe

/-- A hook run, or a change the loader makes to the maps it fills. -/
inductive TcpEvent where
  | tcpSetState (context : HookContext) (newState : UInt16)
  | tcpDestroySock (skPtr : SockPtr)
  | tcpSendmsg (context : HookContext) (size : UInt64)
  | tcpRecvmsg (context : HookContext)
  | tcpAddBacklog (discard : Bool) (stashed : Option HookContext)
  | tcpFilter (discard : Bool) (stashed : Option HookContext)
  | tcpWriteErr (context : HookContext)
  | tcpCleanupRbuf (context : HookContext) (copied : Int32)
  | sockExceedBufLimit (context : HookContext)
  | tcpSendReset (context : HookContext)
  | tcpReceiveReset (context : HookContext)
  | tcpRetransmitSkb (context : HookContext) (segs : Int32)
  | tcpDone (context : HookContext)
  | tcpTryRmemSchedule (ret : Int32) (stashed : Option HookContext)
  | tcpCheckOom (ret : Bool) (stashed : Option HookContext)
  | setArgs (args : Option TcpArgs)
  | setTasks (tasks : UInt32 → Bool)
  | setFds (fdMap : BoundedMap UInt32 TcpFdInfo tcpFdMax)

def TcpProbe.step (host : ByteOrder) (probe : TcpProbe) : TcpEvent → TcpProbe
  | .tcpSetState context newState => probe.tcpSetState host context newState
  | .tcpDestroySock skPtr => probe.tcpDestroySock skPtr
  | .tcpSendmsg context size => probe.tcpSendmsg host context size
  | .tcpRecvmsg context => probe.tcpRecvmsg host context
  | .tcpAddBacklog discard stashed => probe.tcpAddBacklog host discard stashed
  | .tcpFilter discard stashed => probe.tcpFilter host discard stashed
  | .tcpWriteErr context => probe.tcpWriteErr host context
  | .tcpCleanupRbuf context copied => probe.tcpCleanupRbuf host context copied
  | .sockExceedBufLimit context => probe.sockExceedBufLimit host context
  | .tcpSendReset context => probe.tcpSendReset host context
  | .tcpReceiveReset context => probe.tcpReceiveReset host context
  | .tcpRetransmitSkb context segs => probe.tcpRetransmitSkb host context segs
  | .tcpDone context => probe.tcpDone host context
  | .tcpTryRmemSchedule ret stashed => probe.tcpTryRmemSchedule host ret stashed
  | .tcpCheckOom ret stashed => probe.tcpCheckOom host ret stashed
  | .setArgs args => { probe with args }
  | .setTasks tasks => { probe with tasks }
  | .setFds fdMap => { probe with fdMap }

end GalaGopher.Ebpf
