import Mathlib.Algebra.Group.Nat.Defs

namespace GalaGopher.Ebpf

/-- A pacing rate, as wide as the headers of the kernel have it: `u32` up to
4.19, `unsigned long` in 5.10. -/
inductive PacingRate where
  | narrow (rate : UInt32)
  | wide (rate : UInt64)

/-- The fields of a `struct sock` that the hooks read. -/
structure Sock where
  skFamily : UInt16 := 0
  skState : UInt8 := 0
  skRcvSaddr : UInt32 := 0
  skDaddr : UInt32 := 0
  skV6RcvSaddr : Vector UInt8 16 := .replicate 16 0
  skV6Daddr : Vector UInt8 16 := .replicate 16 0
  skNum : UInt16 := 0
  skDport : UInt16 := 0
  writeSeq : UInt32 := 0
  sndNxt : UInt32 := 0
  sndWnd : UInt32 := 0
  sndUna : UInt32 := 0
  rcvWnd : UInt32 := 0
  chronoStart : UInt32 := 0
  chronoStat : Vector UInt32 3 := .replicate 3 0
  chronoType : UInt8 := 0
  rateDelivered : UInt32 := 0
  rateIntervalUs : UInt32 := 0
  mssCache : UInt32 := 0
  skDrops : UInt32 := 0
  lostOut : UInt32 := 0
  sackedOut : UInt32 := 0
  icskRto : UInt32 := 0
  icskAckAto : UInt32 := 0
  srttUs : UInt32 := 0
  sndSsthresh : UInt32 := 0
  rcvSsthresh : UInt32 := 0
  sndCwnd : UInt32 := 0
  advmss : UInt16 := 0
  reordering : UInt32 := 0
  rcvRttEstRttUs : UInt32 := 0
  rcvqSpaceSpace : UInt32 := 0
  skPacingRate : PacingRate := .narrow 0
  skMaxPacingRate : PacingRate := .narrow 0
  skErrorQueueQlen : UInt32 := 0
  skReceiveQueueQlen : UInt32 := 0
  skWriteQueueQlen : UInt32 := 0
  skBacklogLen : UInt32 := 0
  skOmemAlloc : UInt32 := 0
  skForwardAlloc : UInt32 := 0
  skWmemAlloc : UInt32 := 0

structure TcpHealth where
  totalRetrans : UInt32 := 0
  backlogDrops : UInt32 := 0
  skDrops : UInt32 := 0
  lostOut : UInt32 := 0
  sackedOut : UInt32 := 0
  filterDrops : UInt32 := 0
  tmout : UInt32 := 0
  sndbufLimit : UInt32 := 0
  attemptFails : UInt32 := 0
  rmemScheduls : UInt32 := 0
  tcpOom : UInt32 := 0
  sendRsts : UInt32 := 0
  receiveRsts : UInt32 := 0

structure TcpState where
  rx : UInt64 := 0
  tx : UInt64 := 0
  rto : UInt32 := 0
  ato : UInt32 := 0
  srtt : UInt32 := 0
  sndSsthresh : UInt32 := 0
  rcvSsthresh : UInt32 := 0
  sndCwnd : UInt32 := 0
  advmss : UInt32 := 0
  reordering : UInt32 := 0
  rcvRtt : UInt32 := 0
  rcvSpace : UInt32 := 0
  notsentBytes : UInt32 := 0
  notackBytes : UInt32 := 0
  sndWnd : UInt32 := 0
  rcvWnd : UInt32 := 0
  deliveryRate : UInt64 := 0
  busyTime : UInt32 := 0
  rwndLimited : UInt32 := 0
  sndbufLimited : UInt32 := 0
  pacingRate : UInt32 := 0
  maxPacingRate : UInt32 := 0
  skErrQueSize : UInt32 := 0
  skRcvQueSize : UInt32 := 0
  skWriQueSize : UInt32 := 0
  skBacklogSize : UInt32 := 0
  skOmemSize : UInt32 := 0
  skForwardSize : UInt32 := 0
  skWmemSize : UInt32 := 0

structure TcpSynStatus where
  synSrttLast : UInt32 := 0

structure TcpStatistics where
  synStatus : TcpSynStatus := {}
  health : TcpHealth := {}
  info : TcpState := {}

/-- `max` -/
def larger (x y : UInt32) : UInt32 := if x > y then x else y

/-- `min_zero` on 32 bits -/
def minZero (x y : UInt32) : UInt32 := if x = 0 then y else if x < y then x else y

/-- `min_zero` on 64 bits -/
def minZero64 (x y : UInt64) : UInt64 := if x = 0 then y else if x < y then x else y

def usecPerSec : UInt64 := 1000000

def hz : UInt64 := 100

def jiffiesToUsecs (jiffies : UInt64) : UInt32 := ((usecPerSec / hz) * jiffies).toUInt32

def getTcpWnd (sk : Sock) (info : TcpState) : TcpState :=
  { info with
    notsentBytes :=
      if sk.writeSeq > sk.sndNxt then larger (sk.writeSeq - sk.sndNxt) info.notsentBytes else info.notsentBytes
    notackBytes :=
      if sk.sndNxt > sk.sndUna then larger (sk.sndNxt - sk.sndUna) info.notackBytes else info.notackBytes
    sndWnd := minZero info.sndWnd sk.sndWnd
    rcvWnd := minZero info.rcvWnd sk.rcvWnd }

/-- One entry of `stats` in `tcp_compute_busy_time`; `index` is its
`TCP_CHRONO_` number. -/
def chronoUsecs (sk : Sock) (ms : UInt64) (index : Fin 3) : UInt64 :=
  let chronoType := sk.chronoType &&& 0xC0
  let stat := sk.chronoStat[index].toUInt64
  let running := if index.val + 1 = chronoType.toNat then
      if ms > sk.chronoStart.toUInt64 then ms - sk.chronoStart.toUInt64 else 0
    else 0
  (stat + running) * (usecPerSec / hz)

def tcpComputeBusyTime (sk : Sock) (now : UInt64) (info : TcpState) : TcpState :=
  let ms := now >>> 6
  let busy := chronoUsecs sk ms 0
  let rwndLimited := chronoUsecs sk ms 1
  let sndbufLimited := chronoUsecs sk ms 2
  { info with
    busyTime := (busy + rwndLimited + sndbufLimited).toUInt32
    rwndLimited := rwndLimited.toUInt32
    sndbufLimited := sndbufLimited.toUInt32 }

def tcpComputeDeliveryRate (sk : Sock) (info : TcpState) : TcpState :=
  let rate := sk.rateDelivered
  let intv := sk.rateIntervalUs
  let rate64 := if rate ≠ 0 ∧ intv ≠ 0 then rate.toUInt64 * sk.mssCache.toUInt64 * usecPerSec else 0
  { info with deliveryRate := minZero64 info.deliveryRate rate64 }

def getTcpHealth (sk : Sock) (health : TcpHealth) : TcpHealth :=
  { health with
    skDrops := sk.skDrops
    lostOut := larger health.lostOut sk.lostOut
    sackedOut := larger health.sackedOut sk.sackedOut }

/-- `~0U`, which a pacing rate is compared with once it is in `tmp`. -/
def unlimited : UInt32 := 0xFFFFFFFF

/-- The `u32 tmp` that a pacing rate is read into. -/
def PacingRate.tmp : PacingRate → UInt32
  | .narrow rate => rate
  | .wide rate => rate.toUInt32

def getTcpInfo (sk : Sock) (now : UInt64) (info : TcpState) : TcpState :=
  let info := { info with
    rto := larger info.rto (jiffiesToUsecs sk.icskRto.toUInt64)
    ato := larger info.ato (jiffiesToUsecs sk.icskAckAto.toUInt64)
    srtt := larger info.srtt (sk.srttUs >>> 3)
    sndSsthresh := minZero info.sndSsthresh sk.sndSsthresh
    rcvSsthresh := minZero info.rcvSsthresh sk.rcvSsthresh
    sndCwnd := minZero info.sndCwnd sk.sndCwnd
    advmss := larger info.advmss sk.advmss.toUInt32
    reordering := larger info.reordering sk.reordering
    rcvRtt := larger info.rcvRtt (sk.rcvRttEstRttUs >>> 3)
    rcvSpace := minZero info.rcvSpace sk.rcvqSpaceSpace }
  let info := tcpComputeDeliveryRate sk info
  let info := tcpComputeBusyTime sk now info
  { info with
    pacingRate :=
      if sk.skPacingRate.tmp ≠ unlimited then minZero info.pacingRate sk.skPacingRate.tmp
      else info.pacingRate
    maxPacingRate :=
      if sk.skMaxPacingRate.tmp ≠ unlimited then minZero info.maxPacingRate sk.skMaxPacingRate.tmp
      else info.maxPacingRate
    skErrQueSize := larger info.skErrQueSize sk.skErrorQueueQlen
    skRcvQueSize := larger info.skRcvQueSize sk.skReceiveQueueQlen
    skWriQueSize := larger info.skWriQueSize sk.skWriteQueueQlen
    skBacklogSize := larger info.skBacklogSize sk.skBacklogLen
    skOmemSize := larger info.skOmemSize sk.skOmemAlloc
    skForwardSize := larger info.skForwardSize sk.skForwardAlloc
    skWmemSize := larger info.skWmemSize sk.skWmemAlloc }

/-- The readings of `tcp_sendmsg` and `tcp_recvmsg`. -/
def TcpStatistics.read (sk : Sock) (now : UInt64) (data : TcpStatistics) : TcpStatistics :=
  { data with
    info := getTcpWnd sk (getTcpInfo sk now data.info)
    health := getTcpHealth sk data.health }

inductive Counter where
  | rx
  | tx
  | totalRetrans
  | backlogDrops
  | filterDrops
  | tmout
  | sndbufLimit
  | attemptFails
  | rmemScheduls
  | tcpOom
  | sendRsts
  | receiveRsts
deriving DecidableEq

def Counter.width : Counter → Nat
  | .rx | .tx => 64
  | _ => 32

namespace TcpStatistics

def count (data : TcpStatistics) : Counter → Nat
  | .rx => data.info.rx.toNat
  | .tx => data.info.tx.toNat
  | .totalRetrans => data.health.totalRetrans.toNat
  | .backlogDrops => data.health.backlogDrops.toNat
  | .filterDrops => data.health.filterDrops.toNat
  | .tmout => data.health.tmout.toNat
  | .sndbufLimit => data.health.sndbufLimit.toNat
  | .attemptFails => data.health.attemptFails.toNat
  | .rmemScheduls => data.health.rmemScheduls.toNat
  | .tcpOom => data.health.tcpOom.toNat
  | .sendRsts => data.health.sendRsts.toNat
  | .receiveRsts => data.health.receiveRsts.toNat

/-- `TCP_TX_XADD`, `TCP_RETRANS_INC` and the other additions to a counter. -/
def add (data : TcpStatistics) (counter : Counter) (delta : UInt64) : TcpStatistics :=
  match counter with
  | .rx => { data with info.rx := data.info.rx + delta }
  | .tx => { data with info.tx := data.info.tx + delta }
  | .totalRetrans => { data with health.totalRetrans := data.health.totalRetrans + delta.toUInt32 }
  | .backlogDrops => { data with health.backlogDrops := data.health.backlogDrops + delta.toUInt32 }
  | .filterDrops => { data with health.filterDrops := data.health.filterDrops + delta.toUInt32 }
  | .tmout => { data with health.tmout := data.health.tmout + delta.toUInt32 }
  | .sndbufLimit => { data with health.sndbufLimit := data.health.sndbufLimit + delta.toUInt32 }
  | .attemptFails => { data with health.attemptFails := data.health.attemptFails + delta.toUInt32 }
  | .rmemScheduls => { data with health.rmemScheduls := data.health.rmemScheduls + delta.toUInt32 }
  | .tcpOom => { data with health.tcpOom := data.health.tcpOom + delta.toUInt32 }
  | .sendRsts => { data with health.sendRsts := data.health.sendRsts + delta.toUInt32 }
  | .receiveRsts => { data with health.receiveRsts := data.health.receiveRsts + delta.toUInt32 }

/-- What `report` clears after an emission. -/
def clear (data : TcpStatistics) : TcpStatistics := { data with health := {}, info := {} }

theorem count_clear (data : TcpStatistics) (counter : Counter) : data.clear.count counter = 0 := by
  cases counter <;> rfl

theorem count_read (sk : Sock) (now : UInt64) (data : TcpStatistics) (counter : Counter) :
    (data.read sk now).count counter = data.count counter := by
  cases counter <;> rfl

theorem count_add (data : TcpStatistics) (counter other : Counter) (delta : UInt64) :
    (data.add counter delta).count other =
      if other = counter then (data.count other + delta.toNat) % 2 ^ other.width else data.count other := by
  cases counter <;> cases other <;> first | rfl | simp [add, count, Counter.width]

end TcpStatistics

end GalaGopher.Ebpf
