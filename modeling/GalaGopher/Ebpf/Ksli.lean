import GalaGopher.Ebpf.Ksli.Command

namespace GalaGopher.Ebpf.Ksli

open Text

inductive SampStatus where
  | sampInit
  | sampReadReady
  | sampWriteReady
  | sampSkbReady
  | sampFinished
deriving DecidableEq, Repr

structure RttCmd where
  command : CommandBuffer := .replicate maxCommandReqSize 0
  rttNsec : UInt64 := 0
deriving DecidableEq

structure ConnData where
  protocol : ConnProtocol := .unknown
  max : RttCmd := {}
  min : RttCmd := {}
  recent : RttCmd := {}
  current : RttCmd := {}
  lastReportTsNsec : UInt64 := 0
  sampleNum : UInt32 := 0

structure ConnSampData where
  status : SampStatus := .sampInit
  skb : UInt64 := 0
  startTsNsec : UInt64 := 0
  rttTsNsec : UInt64 := 0

/-- What a report says of its period; the addresses are those of the
connection. -/
structure MsgEventData where
  protocol : ConnProtocol
  max : RttCmd
  min : RttCmd
  recent : RttCmd
  sampleNum : UInt32
deriving DecidableEq

/-- The entries of the connection in `conn_map` and `conn_samp_map`; after
`accept` both are zero. -/
structure Conn where
  connData : ConnData := {}
  csd : ConnSampData := {}

def period : UInt64 := 5 * 1000000000

def periodicReport (tsNsec : UInt64) (connData : ConnData) : ConnData × Option MsgEventData :=
  if tsNsec > connData.lastReportTsNsec ∧ tsNsec - connData.lastReportTsNsec ≥ period then
    let report := { connData with lastReportTsNsec := tsNsec }
    if connData.sampleNum > 0 then
      ({ report with sampleNum := 0 },
        some
          { protocol := connData.protocol, max := connData.max, min := connData.min,
            recent := connData.recent, sampleNum := connData.sampleNum })
    else
      (report, none)
  else
    (connData, none)

/-- The finished sample goes into the records of the period. -/
def takeSample (conn : Conn) : Conn :=
  if conn.csd.status = .sampFinished then
    let recent : RttCmd := { conn.connData.current with rttNsec := conn.csd.rttTsNsec }
    let connData : ConnData := { conn.connData with recent }
    let connData :=
      if connData.sampleNum = 0 then
        { connData with max := recent, min := recent }
      else if recent.rttNsec > connData.max.rttNsec then
        { connData with max := recent }
      else if recent.rttNsec < connData.min.rttNsec then
        { connData with min := recent }
      else
        connData
    { connData := { connData with sampleNum := connData.sampleNum + 1, current := {} }
      csd := { conn.csd with status := .sampInit } }
  else
    conn

/-- A sample that takes longer than a period is given up. -/
def giveUp (conn : Conn) (tsNsec : UInt64) : Conn :=
  if tsNsec > conn.csd.startTsNsec ∧ tsNsec - conn.csd.startTsNsec ≥ period then
    { conn with csd := { conn.csd with status := .sampInit, startTsNsec := 0 } }
  else
    conn

/-- The next sample begins if the data read is a request. -/
def openSample (conn : Conn) (tsNsec : UInt64) (data : Bytes) (readable : Bool) : Conn :=
  let (protocol, command) := parseReq conn.connData.current.command data readable
  let connData := { conn.connData with current := { conn.connData.current with command } }
  if protocol = .unknown then
    { conn with connData }
  else
    { connData := if connData.sampleNum = 0 then { connData with protocol } else connData
      csd :=
        { conn.csd with
          startTsNsec := if conn.csd.startTsNsec = 0 then tsNsec else conn.csd.startTsNsec
          status := .sampReadReady } }

/-- `process_rdwr_msg` for `MSG_READ` -/
def processRead (conn : Conn) (tsNsec : UInt64) (data : Bytes) (readable : Bool) :
    Conn × Option MsgEventData :=
  let (connData, report) := periodicReport tsNsec conn.connData
  let conn := takeSample { conn with connData }
  (if conn.csd.status ≠ .sampInit then giveUp conn tsNsec else openSample conn tsNsec data readable, report)

/-- `process_rdwr_msg` for `MSG_WRITE` -/
def processWrite (conn : Conn) : Conn :=
  if conn.csd.status = .sampReadReady then
    { conn with csd := { conn.csd with status := .sampWriteReady } }
  else
    conn

/-- The return of `ksys_read`, with what it read. -/
def ksysRead (conn : Conn) (tsNsec : UInt64) (data : Bytes) (readable : Bool) : Conn × Option MsgEventData :=
  if data.length = 0 then (conn, none) else processRead conn tsNsec data readable

def ksysWrite (conn : Conn) (count : Int32) : Conn :=
  if count ≤ 0 then conn else processWrite conn

def tcpEventNewDataSent (conn : Conn) (skb : UInt64) : Conn :=
  if conn.csd.status = .sampWriteReady then
    { conn with csd := { conn.csd with skb, status := .sampSkbReady } }
  else
    conn

def tcpRateSkbDelivered (conn : Conn) (skb : UInt64) (endTsNsec : UInt64) : Conn :=
  if conn.csd.status = .sampSkbReady ∧ conn.csd.skb = skb then
    if endTsNsec < conn.csd.startTsNsec then
      { conn with csd := { conn.csd with status := .sampInit } }
    else
      { conn with
        csd :=
          { conn.csd with
            rttTsNsec := endTsNsec - conn.csd.startTsNsec, startTsNsec := 0, status := .sampFinished } }
  else
    conn

/-- `queued` is the timestamp of the first packet in the receive queue. -/
def tcpRecvmsg (conn : Conn) (queued : Option UInt64) : Conn :=
  if conn.csd.status = .sampFinished ∨ conn.csd.status = .sampInit then
    match queued with
    | some tstamp => { conn with csd := { conn.csd with startTsNsec := tstamp } }
    | none => conn
  else
    conn

/-- `thread` is the one that calls `read`, which enters `tcp_recvmsg` and
returns later. -/
inductive Event where
  | read (thread : Nat) (tsNsec : UInt64) (data : Bytes) (readable : Bool)
  | write (count : Int32)
  | newDataSent (skb : UInt64)
  | skbDelivered (skb : UInt64) (endTsNsec : UInt64)
  | recvmsg (thread : Nat) (queued : Option UInt64)

def Conn.step (conn : Conn) : Event → Conn × Option MsgEventData
  | .read _ tsNsec data readable => ksysRead conn tsNsec data readable
  | .write count => (ksysWrite conn count, none)
  | .newDataSent skb => (tcpEventNewDataSent conn skb, none)
  | .skbDelivered skb endTsNsec => (tcpRateSkbDelivered conn skb endTsNsec, none)
  | .recvmsg _ queued => (tcpRecvmsg conn queued, none)

/-- The sample that an event moves into `recent`. -/
def Conn.taken (conn : Conn) : Event → Option RttCmd
  | .read _ _ data _ =>
      if data.length ≠ 0 ∧ conn.csd.status = .sampFinished then
        some { conn.connData.current with rttNsec := conn.csd.rttTsNsec }
      else
        none
  | _ => none

theorem periodicReport_current (tsNsec : UInt64) (connData : ConnData) :
    (periodicReport tsNsec connData).1.current = connData.current := by
  unfold periodicReport
  split
  case isTrue => split <;> rfl
  case isFalse => rfl

/-- `*1\r\n$4\r\nPING\r\n` -/
def ping : Bytes := [42, 49, 13, 10, 36, 52, 13, 10, 80, 73, 78, 71, 13, 10]

end GalaGopher.Ebpf.Ksli
