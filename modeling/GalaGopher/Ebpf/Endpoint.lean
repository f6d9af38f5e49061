import GalaGopher.Data.BoundedMap
import GalaGopher.Ebpf.Lvs
import GalaGopher.Ebpf.TcpProbe

namespace GalaGopher.Ebpf.Endpoint

open Data Lvs

/-- The indices of `stats`. -/
inductive Stat where
  | listenDrops
  | acceptOverflow
  | synOverflow
  | passiveOpens
  | passiveFails
  | retransSynack
  | activeOpens
  | activeFails
  | queRcvFailed
  | udpSends
  | udpRcvs
deriving DecidableEq

abbrev Stats := Stat → UInt64

def Stats.zero : Stats := fun _ => 0

def Stats.add (stats : Stats) (metric : Stat) (delta : UInt64) : Stats := fun other =>
  if other = metric then stats other + delta else stats other

/-- `enum endpoint_t` -/
inductive SkType where
  | listenTcp
  | listenUdp
  | clientTcp
  | clientUdp
deriving DecidableEq

/-- `struct endpoint_v` -/
structure EndpointV where
  type : SkType
  tgid : UInt32
deriving DecidableEq

structure IpAddr where
  ip : Ip := .zero
  family : Int32 := 0
deriving DecidableEq

/-- `struct endpoint_key_t`; the type says which member of the union is set. -/
inductive Key where
  | udpClient (tgid : Int32) (ipAddr : IpAddr)
  | udpServer (tgid : Int32) (ipAddr : IpAddr)
  | tcpListen (tgid port : Int32)
  | tcpConnect (tgid : Int32) (ipAddr : IpAddr)
deriving DecidableEq

def Key.type : Key → SkType
  | .udpClient .. => .clientUdp
  | .udpServer .. => .listenUdp
  | .tcpListen .. => .listenTcp
  | .tcpConnect .. => .clientTcp

/-- `struct endpoint_val_t` -/
structure Val where
  ts : UInt64
  udpErrCode : Int32 := 0
  key : Key
  epStats : Stats := .zero

/-- `ATOMIC_INC_EP_STATS` -/
def Val.count (value : Val) (metric : Stat) (delta : UInt64) : Val :=
  { value with epStats := value.epStats.add metric delta }

structure ListenSockfdKey where
  tgid : Int32
  fd : Int32
deriving DecidableEq

/-- `struct endpoint_args_s` -/
structure Args where
  period : UInt64
  filterByTask : UInt32
  filterByTgid : UInt32

/-- The fields of a `struct sock` that the hooks read; the IPv4 address is kept
as it lies in memory. -/
structure Sock where
  skFamily : UInt16 := 0
  skRcvSaddr : Vector UInt8 4 := .replicate 4 0
  skV6RcvSaddr : Vector UInt8 16 := .replicate 16 0
  skNum : UInt16 := 0
  skAckBacklog : UInt32 := 0
  skMaxAckBacklog : UInt32 := 0
  qlen : Int32 := 0

def endpointMax : Nat := 10 * 1024

def endpointStatMax : Nat := 1024

def listenFdMax : Nat := 1024

/-- The objects of each kind, in the map of that kind. -/
structure Objects where
  listenSockMap : BoundedMap (Int32 × Int32) Val endpointStatMax := .empty
  connSockMap : BoundedMap (Int32 × IpAddr) Val endpointStatMax := .empty
  udpSockMap : BoundedMap (Int32 × IpAddr) Val endpointStatMax := .empty
  udpBindMap : BoundedMap (Int32 × IpAddr) Val endpointStatMax := .empty

namespace Objects

def lookup (objects : Objects) : Key → Option Val
  | .tcpListen tgid port => objects.listenSockMap.lookup (tgid, port)
  | .tcpConnect tgid ipAddr => objects.connSockMap.lookup (tgid, ipAddr)
  | .udpClient tgid ipAddr => objects.udpSockMap.lookup (tgid, ipAddr)
  | .udpServer tgid ipAddr => objects.udpBindMap.lookup (tgid, ipAddr)

/-- `none` when the map of the key's kind is full. -/
def update (objects : Objects) (key : Key) (value : Val) : Option Objects :=
  match key with
  | .tcpListen tgid port =>
      (objects.listenSockMap.update (tgid, port) value).map fun listenSockMap => { objects with listenSockMap }
  | .tcpConnect tgid ipAddr =>
      (objects.connSockMap.update (tgid, ipAddr) value).map fun connSockMap => { objects with connSockMap }
  | .udpClient tgid ipAddr =>
      (objects.udpSockMap.update (tgid, ipAddr) value).map fun udpSockMap => { objects with udpSockMap }
  | .udpServer tgid ipAddr =>
      (objects.udpBindMap.update (tgid, ipAddr) value).map fun udpBindMap => { objects with udpBindMap }

/-- A change through the pointer that a lookup returned. -/
def modify (objects : Objects) (key : Key) (change : Val → Val) : Objects :=
  match key with
  | .tcpListen tgid port => { objects with listenSockMap := objects.listenSockMap.modify (tgid, port) change }
  | .tcpConnect tgid ipAddr => { objects with connSockMap := objects.connSockMap.modify (tgid, ipAddr) change }
  | .udpClient tgid ipAddr => { objects with udpSockMap := objects.udpSockMap.modify (tgid, ipAddr) change }
  | .udpServer tgid ipAddr => { objects with udpBindMap := objects.udpBindMap.modify (tgid, ipAddr) change }

/-- The number of objects of a kind. -/
def count (objects : Objects) : SkType → Nat
  | .listenTcp => objects.listenSockMap.entries.length
  | .clientTcp => objects.connSockMap.entries.length
  | .clientUdp => objects.udpSockMap.entries.length
  | .listenUdp => objects.udpBindMap.entries.length

end Objects

/-- The maps of the probe, the pids of the shared task map, and what went out
on the perf buffer. -/
structure Probe where
  endpointMap : BoundedMap SockPtr EndpointV endpointMax := .empty
  objects : Objects := {}
  listenSockfdMap : BoundedMap ListenSockfdKey Int32 listenFdMax := .empty
  args : Option Args := none
  tasks : UInt32 → Bool := fun _ => false
  output : List Val := []

/-- What a hook finds: a socket and its contents, the running process, and the
clock wherever it is read. -/
structure Context where
  skPtr : SockPtr
  sk : Sock := {}
  tgid : UInt32 := 0
  createdAt : UInt64 := 0
  reportedAt : UInt64 := 0

/-- An IPv4 address in a union that is clear. -/
def ip4 (bytes : Vector UInt8 4) : Ip := .ofFn fun place => if low : place.val < 4 then bytes[place.val] else 0

def initIp (sk : Sock) : IpAddr :=
  let ip := if sk.skFamily = Lvs.afInet then ip4 sk.skRcvSaddr
    else if sk.skFamily = afInet6 then sk.skV6RcvSaddr
    else .zero
  { ip, family := sk.skFamily.toUInt32.toInt32 }

/-- `get_tcp_key`, or `none` for a type that `get_tcp_obj` does not know. -/
def getTcpKey (type : SkType) (sk : Sock) (tgid : UInt32) : Option Key :=
  match type with
  | .listenTcp => some (.tcpListen tgid.toInt32 sk.skNum.toUInt32.toInt32)
  | .clientTcp => some (.tcpConnect tgid.toInt32 (initIp sk))
  | .listenUdp | .clientUdp => none

/-- `get_udp_key`, or `none` for a type that `get_udp_obj` does not know. -/
def getUdpKey (type : SkType) (sk : Sock) (tgid : UInt32) : Option Key :=
  match type with
  | .listenUdp => some (.udpServer tgid.toInt32 (initIp sk))
  | .clientUdp => some (.udpClient tgid.toInt32 (initIp sk))
  | .listenTcp | .clientTcp => none

/-- The entry as `report` leaves it, and what it puts out. -/
def report (value : Val) (newEntry : Bool) (now period : UInt64) : Val × Option Val :=
  if newEntry then
    ({ value with epStats := .zero }, some value)
  else if now > value.ts ∧ now - value.ts < period then
    (value, none)
  else
    let value := { value with ts := now }
    ({ value with epStats := .zero }, some value)

def skAcceptqIsFull (sk : Sock) : Bool := sk.skAckBacklog > sk.skMaxAckBacklog

def skSynqIsFull (sk : Sock) : Bool := sk.qlen.toUInt32 ≥ sk.skMaxAckBacklog

namespace Probe

/-- `__PERIOD` -/
def defaultPeriod : UInt64 := 30 * 1000000000

def getPeriod (probe : Probe) : UInt64 :=
  match probe.args with
  | some args => args.period
  | none => defaultPeriod

def isValidTgid (probe : Probe) (tgid : UInt32) : Bool :=
  match probe.args with
  | some args =>
      if args.filterByTask ≠ 0 then probe.tasks tgid
      else if args.filterByTgid ≠ 0 then args.filterByTgid = tgid
      else true
  | none => true

def createSockMap (probe : Probe) (skPtr : SockPtr) (type : SkType) (tgid : UInt32) : Probe :=
  if !probe.isValidTgid tgid then
    probe
  else
    match probe.endpointMap.update skPtr { type, tgid } with
    | some endpointMap => { probe with endpointMap }
    | none => probe

def deleteSockMap (probe : Probe) (skPtr : SockPtr) : Probe :=
  { probe with endpointMap := probe.endpointMap.delete skPtr }

/-- `create_tcp_obj` and `create_udp_obj` -/
def createObj (probe : Probe) (key : Key) (now : UInt64) : Option Probe :=
  (probe.objects.update key { ts := now, key }).map fun objects => { probe with objects }

/-- The key that a socket counts under, by its entry in `endpoint_map`. -/
def keyOf (getKey : SkType → Sock → UInt32 → Option Key) (probe : Probe) (context : Context) : Option Key :=
  if context.skPtr = 0 then
    none
  else
    match probe.endpointMap.lookup context.skPtr with
    | none => none
    | some epv => getKey epv.type context.sk epv.tgid

/-- The object of a socket and whether it is new. -/
def getVal (getKey : SkType → Sock → UInt32 → Option Key) (probe : Probe) (context : Context) :
    Probe × Option (Val × Bool) :=
  match probe.keyOf getKey context with
  | none => (probe, none)
  | some key =>
      match probe.objects.lookup key with
      | some value => (probe, some (value, false))
      | none =>
          match probe.createObj key context.createdAt with
          | none => (probe, none)
          | some created => (created, (created.objects.lookup key).map (·, true))

def getTcpVal (probe : Probe) (context : Context) : Probe × Option (Val × Bool) := probe.getVal getTcpKey context

def getUdpVal (probe : Probe) (context : Context) : Probe × Option (Val × Bool) := probe.getVal getUdpKey context

/-- What a hook does with the object it gets: a change, and then a report or
none. -/
def withVal (getKey : SkType → Sock → UInt32 → Option Key) (probe : Probe) (context : Context)
    (change : Val → Val) (reports : Bool → Bool) : Probe :=
  match probe.getVal getKey context with
  | (probe, none) => probe
  | (probe, some (value, newEntry)) =>
      let (kept, emitted) :=
        if reports newEntry then report (change value) newEntry context.reportedAt probe.getPeriod
        else (change value, none)
      { probe with
        objects := probe.objects.modify value.key fun _ => kept
        output := probe.output ++ emitted.toList }

variable (probe : Probe) (context : Context)

/-- A hook that adds to one counter and reports. -/
def countTcp (metric : Stat) : Probe := probe.withVal getTcpKey context (·.count metric 1) fun _ => true

def countUdp (metric : Stat) (len : UInt64) : Probe :=
  probe.withVal getUdpKey context (·.count metric len) fun _ => true

/-- Only a new object is reported. -/
def reportTcp : Probe := probe.withVal getTcpKey context id id

def reportUdp : Probe := probe.withVal getUdpKey context id id

def sockRelease (skPtr : SockPtr) : Probe := probe.deleteSockMap skPtr

def inetListen : Probe := (probe.createSockMap context.skPtr .listenTcp context.tgid).reportTcp context

/-- `sock_get_by_fd` finds the socket of the context, if there is a task. -/
def sysAccept4 (fd : Int32) (task : Bool) : Probe :=
  let key : ListenSockfdKey := { tgid := context.tgid.toInt32, fd }
  match probe.listenSockfdMap.lookup key with
  | none => probe
  | some _ =>
      if !task then probe
      else if context.skPtr = 0 then probe
      else
        let probe := { probe with listenSockfdMap := probe.listenSockfdMap.delete key }
        (probe.createSockMap context.skPtr .listenTcp context.tgid).countTcp context .passiveOpens

/-- `tcp_connect` and the other return probes find the socket of the call among
the stashed parameters, or nothing. -/
def tcpConnect (ret : Int32) (stashed : Option Context) : Probe :=
  match stashed with
  | none => probe
  | some context =>
      if context.skPtr = 0 then probe
      else
        let probe := probe.createSockMap context.skPtr .clientTcp context.tgid
        if ret = 0 then probe.countTcp context .activeOpens else probe.countTcp context .activeFails

def tcpConnRequest : Probe :=
  let acceptqIsFull := skAcceptqIsFull context.sk
  let synqIsFull := skSynqIsFull context.sk
  let change (value : Val) : Val :=
    let value := if acceptqIsFull then value.count .acceptOverflow 1 else value
    if synqIsFull then value.count .synOverflow 1 else value
  probe.withVal getTcpKey context change fun _ => acceptqIsFull || synqIsFull

/-- The socket of the context is the listener of the request. -/
def tcpReqErr (abort : Bool) : Probe :=
  if !abort then probe else probe.countTcp context .listenDrops

def tcpCreateOpenreqChild (newSk : Bool) (stashed : Option Context) : Probe :=
  match stashed with
  | none => probe
  | some context =>
      if context.skPtr = 0 then probe
      else
        let metric := if newSk then Stat.passiveOpens else Stat.listenDrops
        probe.withVal getTcpKey context (·.count metric 1) fun _ => false

def tcpCheckReq (newSk : Bool) (stashed : Option Context) : Probe :=
  match stashed with
  | none => probe
  | some context =>
      if context.skPtr = 0 then probe
      else
        let change (value : Val) : Val := if newSk then value else value.count .passiveFails 1
        probe.withVal getTcpKey context change fun _ => false

def tcpRetransmitSynack : Probe := probe.countTcp context .retransSynack

def inetBind (ret : Int32) (dgram : Bool) (stashed : Option Context) : Probe :=
  match stashed with
  | none => probe
  | some context =>
      if ret ≠ 0 then probe
      else if context.skPtr = 0 then probe
      else if dgram then
        (probe.createSockMap context.skPtr .listenUdp context.tgid).reportUdp context
      else
        probe

def udpSendmsg (len : UInt64) : Probe := probe.countUdp context .udpSends len

def udpRecvmsg (len : UInt64) : Probe := probe.countUdp context .udpRcvs len

def udpFailQueueRcvSkb (rc : Int32) : Probe :=
  let change (value : Val) : Val := { value.count .queRcvFailed 1 with udpErrCode := rc }
  probe.withVal getUdpKey context change fun _ => false

def udpInitSock : Probe := (probe.createSockMap context.skPtr .clientUdp context.tgid).reportUdp context

/-- `load_listen_fd`, for the listening descriptors that are found. -/
def loadListenFd (tlps : List ListenSockfdKey) : Probe :=
  { probe with
    listenSockfdMap := tlps.foldl (fun map key => (map.update key key.fd).getD map) probe.listenSockfdMap }

end Probe

/-- A hook run, or a change that user space makes to the maps it fills. -/
inductive Event where
  | sockRelease (skPtr : SockPtr)
  | inetListen (context : Context)
  | sysAccept4 (context : Context) (fd : Int32) (task : Bool)
  | tcpConnect (ret : Int32) (stashed : Option Context)
  | tcpConnRequest (context : Context)
  | tcpReqErr (context : Context) (abort : Bool)
  | tcpCreateOpenreqChild (newSk : Bool) (stashed : Option Context)
  | tcpCheckReq (newSk : Bool) (stashed : Option Context)
  | tcpRetransmitSynack (context : Context)
  | inetBind (ret : Int32) (dgram : Bool) (stashed : Option Context)
  | udpSendmsg (context : Context) (len : UInt64)
  | udpRecvmsg (context : Context) (len : UInt64)
  | udpFailQueueRcvSkb (rc : Int32) (context : Context)
  | udpInitSock (context : Context)
  | setArgs (args : Option Args)
  | setTasks (tasks : UInt32 → Bool)
  | loadListenFd (tlps : List ListenSockfdKey)

def Probe.step (probe : Probe) : Event → Probe
  | .sockRelease skPtr => probe.sockRelease skPtr
  | .inetListen context => probe.inetListen context
  | .sysAccept4 context fd task => probe.sysAccept4 context fd task
  | .tcpConnect ret stashed => probe.tcpConnect ret stashed
  | .tcpConnRequest context => probe.tcpConnRequest context
  | .tcpReqErr context abort => probe.tcpReqErr context abort
  | .tcpCreateOpenreqChild newSk stashed => probe.tcpCreateOpenreqChild newSk stashed
  | .tcpCheckReq newSk stashed => probe.tcpCheckReq newSk stashed
  | .tcpRetransmitSynack context => probe.tcpRetransmitSynack context
  | .inetBind ret dgram stashed => probe.inetBind ret dgram stashed
  | .udpSendmsg context len => probe.udpSendmsg context len
  | .udpRecvmsg context len => probe.udpRecvmsg context len
  | .udpFailQueueRcvSkb rc context => probe.udpFailQueueRcvSkb context rc
  | .udpInitSock context => probe.udpInitSock context
  | .setArgs args => { probe with args }
  | .setTasks tasks => { probe with tasks }
  | .loadListenFd tlps => probe.loadListenFd tlps

end GalaGopher.Ebpf.Endpoint
