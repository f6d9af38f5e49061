import GalaGopher.Ebpf.Ksli.Reports
import GalaGopher.Ebpf.LoadBalancer.Addresses
import GalaGopher.Text.Lines

namespace GalaGopher.Ebpf.Ksli

open Text Lvs LoadBalancer

structure IpInfo where
  ipaddr : Ip := .zero
  port : UInt16 := 0
  family : UInt32 := 0
deriving DecidableEq

/-- The protocol is with the data of the connection. -/
structure ConnId where
  tgid : Int32
  fd : Int32
  serverIpInfo : IpInfo := {}
  clientIpInfo : IpInfo := {}
  tsNsec : UInt64 := 0
deriving DecidableEq

/-- `skNum` is in host order and `skDport` in network order. -/
structure Sock where
  skFamily : UInt16
  skRcvSaddr : Vector UInt8 4 := .replicate 4 0
  skDaddr : Vector UInt8 4 := .replicate 4 0
  skV6RcvSaddr : Ip := .zero
  skV6Daddr : Ip := .zero
  skNum : UInt16
  skDport : UInt16

/-- The identity stored for the connection, which is clear before; the family
goes to the client's side only. -/
def initConnId (fd tgid : Int32) (sk : Sock) (now : UInt64) : Option ConnId :=
  let connId : ConnId := { tgid, fd, clientIpInfo := { family := sk.skFamily.toUInt32 } }
  let filled :=
    if connId.clientIpInfo.family = afInet.toUInt32 then
      some
        { connId with
          serverIpInfo.ipaddr := setIp4 connId.serverIpInfo.ipaddr sk.skRcvSaddr
          clientIpInfo.ipaddr := setIp4 connId.clientIpInfo.ipaddr sk.skDaddr }
    else if connId.clientIpInfo.family = afInet6.toUInt32 then
      some { connId with serverIpInfo.ipaddr := sk.skV6RcvSaddr, clientIpInfo.ipaddr := sk.skV6Daddr }
    else
      none
  filled.map fun connId =>
    { connId with serverIpInfo.port := sk.skNum, clientIpInfo.port := sk.skDport, tsNsec := now }

theorem initConnId_inet (fd tgid : Int32) {sk : Sock} (now : UInt64) (family : sk.skFamily = afInet) :
    initConnId fd tgid sk now = some
      { tgid, fd, tsNsec := now
        serverIpInfo := { ipaddr := setIp4 .zero sk.skRcvSaddr, port := sk.skNum }
        clientIpInfo := { ipaddr := setIp4 .zero sk.skDaddr, port := sk.skDport, family := afInet.toUInt32 } } := by
  rw [initConnId, family]
  rfl

theorem initConnId_inet6 (fd tgid : Int32) {sk : Sock} (now : UInt64) (family : sk.skFamily = afInet6) :
    initConnId fd tgid sk now = some
      { tgid, fd, tsNsec := now
        serverIpInfo := { ipaddr := sk.skV6RcvSaddr, port := sk.skNum }
        clientIpInfo := { ipaddr := sk.skV6Daddr, port := sk.skDport, family := afInet6.toUInt32 } } := by
  rw [initConnId, family]
  rfl

/-- `struct msg_event_data_t` with the identity and both ends copied into it. -/
structure MsgEvent where
  connId : ConnId
  serverIpInfo : IpInfo
  clientIpInfo : IpInfo
  data : MsgEventData

/-- An entry of `conn_map`, with what else is known of the connection. -/
structure Accepted where
  id : ConnId
  conn : Conn := {}

namespace Accepted

def step (accepted : Accepted) (event : Event) : Accepted × Option MsgEvent :=
  let (conn, report) := accepted.conn.step event
  ({ accepted with conn },
    report.map fun data =>
      { connId := accepted.id, serverIpInfo := accepted.id.serverIpInfo, clientIpInfo := accepted.id.clientIpInfo, data })

/-- What is sent to user space in the course of the events. -/
def sent (accepted : Accepted) : List Event → List MsgEvent
  | [] => []
  | event :: rest => (accepted.step event).2.toList ++ (accepted.step event).1.sent rest

theorem sent_id (accepted : Accepted) (events : List Event) :
    ∀ report ∈ accepted.sent events, report.connId = accepted.id ∧
      report.serverIpInfo = accepted.id.serverIpInfo ∧ report.clientIpInfo = accepted.id.clientIpInfo := by
  induction events generalizing accepted with
  | nil =>
      intro report member
      cases member
  | cons event rest ih =>
      intro report member
      rw [sent] at member
      rcases List.mem_append.mp member with now | later
      · obtain ⟨data, _, rfl⟩ := Option.map_eq_some_iff.mp (Option.mem_toList.mp now)
        exact ⟨rfl, rfl, rfl⟩
      · exact ih (accepted.step event).1 report later

end Accepted

def protocolName : ConnProtocol → Bytes
  | .redis => ascii "REDIS"
  | .unknown => ascii "unknown"

/-- `%d` -/
def signed (number : Int32) : Bytes := ascii (toString number.toInt)

/-- The command ends at its NUL, or at the padding behind it. -/
def commandColumns (cmd : RttCmd) : List Bytes := [cString cmd.command.toList, decimal cmd.rttNsec.toNat]

def msgEventHandler (host : ByteOrder) (msgEvtData : MsgEvent) : Bytes :=
  row
    ([ascii "ksliprobe", signed msgEvtData.connId.tgid, signed msgEvtData.connId.fd,
        protocolName msgEvtData.data.protocol,
        ipStr msgEvtData.serverIpInfo.family.toNat msgEvtData.serverIpInfo.ipaddr,
        decimal msgEvtData.serverIpInfo.port.toNat,
        ipStr msgEvtData.clientIpInfo.family.toNat msgEvtData.clientIpInfo.ipaddr,
        decimal (bpfNtohs host msgEvtData.clientIpInfo.port).toNat] ++
      (commandColumns msgEvtData.data.max ++ commandColumns msgEvtData.data.min ++
        commandColumns msgEvtData.data.recent ++ [decimal msgEvtData.data.sampleNum.toNat]))

def Sock.localAddress (sk : Sock) : InetAddress :=
  if sk.skFamily = afInet6 then .inet6 sk.skV6RcvSaddr else .inet sk.skRcvSaddr

def Sock.remoteAddress (sk : Sock) : InetAddress :=
  if sk.skFamily = afInet6 then .inet6 sk.skV6Daddr else .inet sk.skDaddr

/-- A line with the socket's own ends, behind the names of the table, the
process, the descriptor and the protocol. -/
structure OwnEnds (host : ByteOrder) (sk : Sock) (line : Bytes) : Prop where
  server : (column 5 line).bind parseAddress = some sk.localAddress
  serverPort : column 6 line = some (decimal sk.skNum.toNat)
  client : (column 7 line).bind parseAddress = some sk.remoteAddress
  clientPort : column 8 line = some (decimal (bpfNtohs host sk.skDport).toNat)

theorem signed_free (number : Int32) : bar ∉ signed number := printed_free (by decide) number.toInt

/-- The four columns of a line. -/
theorem msgEventHandler_columns (host : ByteOrder) (report : MsgEvent) :
    column 5 (msgEventHandler host report) = some (ipStr report.serverIpInfo.family.toNat report.serverIpInfo.ipaddr) ∧
      column 6 (msgEventHandler host report) = some (decimal report.serverIpInfo.port.toNat) ∧
      column 7 (msgEventHandler host report) =
        some (ipStr report.clientIpInfo.family.toNat report.clientIpInfo.ipaddr) ∧
      column 8 (msgEventHandler host report) = some (decimal (bpfNtohs host report.clientIpInfo.port).toNat) := by
  have protocolFree : bar ∉ protocolName report.data.protocol := by
    cases report.data.protocol <;> decide
  have nameFree : bar ∉ ascii "ksliprobe" := by decide
  refine ⟨column_row ?_ _ (by simp), column_row ?_ _ (by simp), column_row ?_ _ (by simp),
    column_row ?_ _ (by simp)⟩ <;>
  · simp only [List.forall_mem_cons]
    exact ⟨nameFree, signed_free _, signed_free _, protocolFree, ipStr_free _ _, decimal_lacks _, ipStr_free _ _,
      decimal_lacks _, by simp⟩

/-- The address of the server is read as that of a family that was never set. -/
theorem unset_family : (0 : UInt32).toNat ≠ afInet6.toNat := by decide

theorem ownEnds_inet {host : ByteOrder} {sk : Sock} {id : ConnId} {fd tgid : Int32} {now : UInt64} {report : MsgEvent}
    (stored : initConnId fd tgid sk now = some id) (inet : sk.skFamily = afInet)
    (server : report.serverIpInfo = id.serverIpInfo) (client : report.clientIpInfo = id.clientIpInfo) :
    OwnEnds host sk (msgEventHandler host report) := by
  have other : afInet.toUInt32.toNat ≠ afInet6.toNat := by decide
  have notInet6 : sk.skFamily ≠ afInet6 := by rw [inet]; decide
  rw [initConnId_inet fd tgid now inet, Option.some.injEq] at stored
  obtain ⟨serverText, serverPort, clientText, clientPort⟩ := msgEventHandler_columns host report
  rw [server, ← stored] at serverText serverPort
  rw [client, ← stored] at clientText clientPort
  refine ⟨?_, serverPort, ?_, clientPort⟩
  · rw [serverText, Option.bind_some, parseAddress_inet unset_family, ip4Of_setIp4, Sock.localAddress, if_neg notInet6]
  · rw [clientText, Option.bind_some, parseAddress_inet other, ip4Of_setIp4, Sock.remoteAddress, if_neg notInet6]

theorem not_ownEnds_inet6 {host : ByteOrder} {sk : Sock} {id : ConnId} {fd tgid : Int32} {now : UInt64}
    {report : MsgEvent} (stored : initConnId fd tgid sk now = some id) (inet6 : sk.skFamily = afInet6)
    (server : report.serverIpInfo = id.serverIpInfo) : ¬ OwnEnds host sk (msgEventHandler host report) := by
  intro own
  rw [initConnId_inet6 fd tgid now inet6, Option.some.injEq] at stored
  have text := (msgEventHandler_columns host report).1
  have parsed := own.server
  rw [server, ← stored] at text
  rw [text, Option.bind_some, parseAddress_inet unset_family, Sock.localAddress, if_pos inet6] at parsed
  cases parsed

/-- Every accepted connection is stored, and its reports carry its own ends
exactly when the socket is of the family `AF_INET`. -/
theorem accepted_ends (host : ByteOrder) (fd tgid : Int32) (sk : Sock) (now : UInt64)
    (family : sk.skFamily = afInet ∨ sk.skFamily = afInet6) :
    ∃ id, initConnId fd tgid sk now = some id ∧
      ∀ events, ∀ report ∈ ({ id } : Accepted).sent events,
        OwnEnds host sk (msgEventHandler host report) ↔ sk.skFamily = afInet := by
  rcases family with inet | inet6
  · have stored := initConnId_inet fd tgid now inet
    refine ⟨_, stored, fun events report member => ?_⟩
    obtain ⟨_, server, client⟩ := Accepted.sent_id _ events report member
    exact iff_of_true (ownEnds_inet stored inet server client) inet
  · have stored := initConnId_inet6 fd tgid now inet6
    have notInet : sk.skFamily ≠ afInet := by rw [inet6]; decide
    refine ⟨_, stored, fun events report member => ?_⟩
    obtain ⟨_, server, _⟩ := Accepted.sent_id _ events report member
    exact iff_of_false (not_ownEnds_inet6 stored inet6 server) notInet

def inetSock : Sock where
  skFamily := afInet
  skRcvSaddr := #v[10, 0, 0, 7]
  skDaddr := #v[10, 0, 0, 9]
  skNum := 6379
  skDport := 0x1234

theorem accepted_ends_inet : ∃ id, initConnId 3 100 inetSock 1 = some id ∧
    ∀ events, ∀ report ∈ ({ id } : Accepted).sent events,
      OwnEnds .little inetSock (msgEventHandler .little report) ↔ inetSock.skFamily = afInet :=
  accepted_ends .little 3 100 inetSock 1 (.inl rfl)

/-- A redis server on `2001:db8::1`. -/
def inet6Sock : Sock where
  skFamily := afInet6
  skV6RcvSaddr := #v[0x20, 0x01, 0x0d, 0xb8, 0, 0, 0, 0, 0, 0, 0, 0, 0, 0, 0, 1]
  skV6Daddr := #v[0x20, 0x01, 0x0d, 0xb8, 0, 0, 0, 0, 0, 0, 0, 0, 10, 0, 0, 2]
  skNum := 6379
  skDport := 0x1234

def inet6Id : ConnId where
  tgid := 100
  fd := 3
  tsNsec := 1
  serverIpInfo := { ipaddr := inet6Sock.skV6RcvSaddr, port := inet6Sock.skNum }
  clientIpInfo := { ipaddr := inet6Sock.skV6Daddr, port := inet6Sock.skDport, family := afInet6.toUInt32 }

/-- The report of one answered request. -/
theorem accepted_ends_inet6 : ¬ ∀ id, initConnId 3 100 inet6Sock 1 = some id →
    ∀ events, ∀ report ∈ ({ id } : Accepted).sent events, OwnEnds .little inet6Sock (msgEventHandler .little report) := by
  intro own
  have stored : initConnId 3 100 inet6Sock 1 = some inet6Id := rfl
  have reported : 0 < (({ id := inet6Id } : Accepted).sent Reported.answered).length := by decide +kernel
  obtain ⟨report, member⟩ := List.exists_mem_of_length_pos reported
  obtain ⟨_, server, _⟩ := Accepted.sent_id _ _ report member
  exact not_ownEnds_inet6 stored rfl server (own inet6Id stored Reported.answered report member)

end GalaGopher.Ebpf.Ksli
