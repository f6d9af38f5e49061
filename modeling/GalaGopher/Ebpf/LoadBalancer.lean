import GalaGopher.Data.Sweep
import GalaGopher.Ebpf.Lvs
import GalaGopher.Ebpf.TcpProbe
import GalaGopher.Text.Printed

namespace GalaGopher.Ebpf.LoadBalancer

open Data Text Lvs

def inet6Addrstrlen : Nat := 48

def colon : UInt8 := 58

def dot : UInt8 := 46

def zeroDigit : UInt8 := 48

/-- `%u` -/
def decimal (number : Nat) : Bytes := ascii (toString number)

/-- `%04x` of two bytes in network order. -/
def hexPair (high low : UInt8) : Bytes :=
  [high / 16, high % 16, low / 16, low % 16].map fun digit => if digit < 10 then 48 + digit else 87 + digit

/-- What is left of the text once the zeros in front of a group are skipped. -/
def skipZeros (tail : Bytes) : Bytes :=
  if tail[0]? ≠ some zeroDigit then tail
  else if tail[1]? ≠ some zeroDigit then tail.drop 1
  else tail.drop 2

/-- The loop of `ip6_str` behind the byte written last. -/
def ip6Compress : Nat → Option UInt8 → Bytes → Bytes
  | 0, _, _ => []
  | _ + 1, _, [] => []
  | fuel + 1, last, byte :: tail =>
      let rest := if byte = zeroDigit ∧ (last = none ∨ last = some colon) then skipZeros tail else byte :: tail
      match rest with
      | [] => []
      | written :: rest => written :: ip6Compress fuel (some written) rest

/-- `NIP6_FMT`: six groups and the last four bytes in decimals. -/
def ip6Format (ip : Ip) : Bytes :=
  [0, 2, 4, 6, 8, 10].flatMap (fun place => hexPair (ip.toList.getD place 0) (ip.toList.getD (place + 1) 0) ++ [colon]) ++
    (decimal (ip.get 12).toNat ++ [dot] ++ decimal (ip.get 13).toNat ++ [dot] ++ decimal (ip.get 14).toNat ++ [dot] ++
      decimal (ip.get 15).toNat)

def ip6Str (ip : Ip) : Bytes := ip6Compress (ip6Format ip).length none (ip6Format ip)

def ipStr (family : Nat) (ip : Ip) : Bytes :=
  if family = afInet6.toNat then
    ip6Str ip
  else
    decimal (ip.get 0).toNat ++ [dot] ++ decimal (ip.get 1).toNat ++ [dot] ++ decimal (ip.get 2).toNat ++ [dot] ++
      decimal (ip.get 3).toNat

/-- `"|%s|...|%s|\n"` -/
def row (columns : List Bytes) : Bytes := columns.flatMap (fun column => bar :: column) ++ [bar, newline]

def port (host : ByteOrder) (network : UInt16) : Bytes := decimal (bpfNtohs host network).toNat

/-- What one turn of a probe's main loop leaves, and the lines of metrics it
prints.  What it logs of each link (`ippro_to_str`, `get_host_ip`) is left out:
no count depends on it. -/
structure Cycle (κ ν μ ω : Type) (links statistics : Nat) where
  links : BoundedMap κ ν links
  statistic : BoundedMap μ ω statistics
  lines : List Bytes

section Loops

variable {κ ν μ ω : Type} {links statistics : Nat} [DecidableEq κ] [DecidableEq μ]

/-- The loop of each `pull_probe_data`: every entry is counted, and deleted if
its link is closed.  The cursor starts at the key that is all zero. -/
def pull (walk : Enumeration κ ν links) (closed : ν → Bool)
    (update : BoundedMap μ ω statistics → κ → ν → BoundedMap μ ω statistics) (zero : κ) (fuel : Nat)
    (map : BoundedMap κ ν links) (statistic : BoundedMap μ ω statistics) :
    Option (BoundedMap κ ν links × BoundedMap μ ω statistics) :=
  walk.sweep closed update fuel map zero statistic

/-- The loop of each print function, which deletes every entry it prints. -/
def print (walk : Enumeration μ ω statistics) (line : μ → ω → Bytes) (zero : μ) (fuel : Nat)
    (statistic : BoundedMap μ ω statistics) : Option (BoundedMap μ ω statistics × List Bytes) :=
  walk.sweep (fun _ => true) (fun lines key value => lines ++ [line key value]) fuel statistic zero []

/-- The one loop after the other. -/
def turn (pulled : Option (BoundedMap κ ν links × BoundedMap μ ω statistics))
    (printing : BoundedMap μ ω statistics → Option (BoundedMap μ ω statistics × List Bytes)) :
    Option (Cycle κ ν μ ω links statistics) :=
  match pulled with
  | none => none
  | some (links, statistic) =>
      (printing statistic).map fun printed => { links, statistic := printed.1, lines := printed.2 }

end Loops

namespace Nginx

structure IpAddr where
  ipaddr : Ip := .zero
  port : UInt16 := 0
  family : UInt32 := 0
deriving DecidableEq

structure NgxMetric where
  srcIp : IpAddr
  ngxIp : IpAddr
  dstIpStr : Vector UInt8 inet6Addrstrlen
  isL7 : Bool
  isFinish : Bool

structure NgxStatisticKey where
  cip : Ip := .zero
  sipStr : Vector UInt8 inet6Addrstrlen := .replicate inet6Addrstrlen 0
  family : BitVec 31 := 0
  isL7 : Bool := false
deriving DecidableEq

structure NgxStatistic where
  ngxIp : IpAddr := {}
  linkCount : UInt32 := 0

def hashItemCnts : Nat := 10240

def statisticMaxEntries : Nat := 100000

abbrev LinkMap := BoundedMap IpAddr NgxMetric hashItemCnts

abbrev StatisticMap := BoundedMap NgxStatisticKey NgxStatistic statisticMaxEntries

def statisticKey (data : NgxMetric) : NgxStatisticKey where
  cip := data.srcIp.ipaddr
  family := data.srcIp.family.toBitVec.setWidth 31
  isL7 := data.isL7
  sipStr := data.dstIpStr

def updateStatisticMap (map : StatisticMap) (data : NgxMetric) : StatisticMap :=
  let k := statisticKey data
  let v := (map.lookup k).getD {}
  let v := if v.linkCount = 0 then { v with ngxIp := data.ngxIp } else v
  let v := { v with linkCount := v.linkCount + 1 }
  (map.update k v).getD map

def pullProbeData (walk : Enumeration IpAddr NgxMetric hashItemCnts) (fuel : Nat) (map : LinkMap)
    (statistic : StatisticMap) : Option (LinkMap × StatisticMap) :=
  pull walk NgxMetric.isFinish (fun statistic _ data => updateStatisticMap statistic data) {} fuel map statistic

/-- The address and the port on the two sides of the last colon. -/
def splitServer (sip : Bytes) : Bytes × Bytes :=
  if colon ∈ sip then
    (((sip.reverse.dropWhile fun byte => byte ≠ colon).drop 1).reverse,
      (sip.reverse.takeWhile fun byte => byte ≠ colon).reverse)
  else
    (sip, [zeroDigit])

/-- The name is in front, and the text of the server ends at its terminator. -/
def statisticLine (host : ByteOrder) (nk : NgxStatisticKey) (d : NgxStatistic) : Bytes :=
  let (sip, sport) := splitServer (nk.sipStr.toList.takeWhile fun byte => byte ≠ 0)
  row [ascii "nginx_link", ipStr nk.family.toNat nk.cip, ipStr d.ngxIp.family.toNat d.ngxIp.ipaddr, sip,
    LoadBalancer.port host d.ngxIp.port, sport, decimal (if nk.isL7 then 1 else 0), decimal d.linkCount.toNat]

def printStatisticMap (host : ByteOrder) (walk : Enumeration NgxStatisticKey NgxStatistic statisticMaxEntries)
    (fuel : Nat) (map : StatisticMap) : Option (StatisticMap × List Bytes) :=
  print walk (statisticLine host) {} fuel map

def cycle (host : ByteOrder) (walkLinks : Enumeration IpAddr NgxMetric hashItemCnts)
    (walkStatistic : Enumeration NgxStatisticKey NgxStatistic statisticMaxEntries) (fuel : Nat) (map : LinkMap) :
    Option (Cycle IpAddr NgxMetric NgxStatisticKey NgxStatistic hashItemCnts statisticMaxEntries) :=
  turn (pullProbeData walkLinks fuel map .empty) (printStatisticMap host walkStatistic fuel)

end Nginx

namespace Haproxy

structure LinkKey where
  cAddr : Ip := .zero
  sAddr : Ip := .zero
  pAddr : Ip := .zero
  cPort : UInt16 := 0
  sPort : UInt16 := 0
  pPort : UInt16 := 0
deriving DecidableEq

structure LinkValue where
  pid : UInt32
  family : UInt16
  state : UInt16
  type : Int8

structure CollectKey where
  cAddr : Ip := .zero
  pAddr : Ip := .zero
  sAddr : Ip := .zero
  pPort : UInt16 := 0
  sPort : UInt16 := 0
deriving DecidableEq

structure CollectValue where
  pid : UInt32 := 0
  family : UInt16 := 0
  protocol : UInt16 := 0
  linkCount : UInt64 := 0

def linkMaxEntries : Nat := 81920

def metricEntries : Nat := 8192

def siStClo : UInt16 := 10

abbrev LinkMap := BoundedMap LinkKey LinkValue linkMaxEntries

abbrev CollectMap := BoundedMap CollectKey CollectValue metricEntries

def isClosed (value : LinkValue) : Bool := value.state = siStClo

def collectKey (k : LinkKey) : CollectKey where
  cAddr := k.cAddr
  pAddr := k.pAddr
  sAddr := k.sAddr
  pPort := k.pPort
  sPort := k.sPort

def updateHaproxyCollectMap (map : CollectMap) (k : LinkKey) (v : LinkValue) : CollectMap :=
  let key := collectKey k
  let val := (map.lookup key).getD {}
  let val := { val with linkCount := val.linkCount + 1 }
  let val := { val with family := v.family, protocol := v.type.toInt16.toUInt16, pid := v.pid }
  (map.update key val).getD map

def pullProbeData (walk : Enumeration LinkKey LinkValue linkMaxEntries) (fuel : Nat) (map : LinkMap)
    (collect : CollectMap) : Option (LinkMap × CollectMap) :=
  pull walk isClosed updateHaproxyCollectMap {} fuel map collect

def collectLine (host : ByteOrder) (nextKey : CollectKey) (value : CollectValue) : Bytes :=
  row [ascii "haproxy_link", ipStr value.family.toNat nextKey.cAddr, ipStr value.family.toNat nextKey.pAddr,
    ipStr value.family.toNat nextKey.sAddr, port host nextKey.pPort, port host nextKey.sPort,
    decimal value.protocol.toNat, decimal value.linkCount.toNat]

def printHaproxyCollect (host : ByteOrder) (walk : Enumeration CollectKey CollectValue metricEntries) (fuel : Nat)
    (map : CollectMap) : Option (CollectMap × List Bytes) :=
  print walk (collectLine host) {} fuel map

def cycle (host : ByteOrder) (walkLinks : Enumeration LinkKey LinkValue linkMaxEntries)
    (walkCollect : Enumeration CollectKey CollectValue metricEntries) (fuel : Nat) (map : LinkMap) :
    Option (Cycle LinkKey LinkValue CollectKey CollectValue linkMaxEntries metricEntries) :=
  turn (pullProbeData walkLinks fuel map .empty) (printHaproxyCollect host walkCollect fuel)

end Haproxy

namespace Ipvs

structure CollectKey where
  cAddr : Ip := .zero
  vAddr : Ip := .zero
  sAddr : Ip := .zero
  lAddr : Ip := .zero
  vPort : UInt16 := 0
  sPort : UInt16 := 0
  family : UInt16 := 0
deriving DecidableEq

structure CollectValue where
  protocol : UInt16 := 0
  linkCount : UInt64 := 0

abbrev LinkMap := BoundedMap LinkKey LinkValue ipvsMaxEntries

abbrev CollectMap := BoundedMap CollectKey CollectValue ipvsMaxEntries

def isClosed (value : LinkValue) : Bool := value.state = tcpSClose

def collectKey (k : LinkKey) (laddr : Ip) : CollectKey where
  family := k.family
  cAddr := k.cAddr
  vAddr := k.vAddr
  sAddr := k.sAddr
  lAddr := laddr
  vPort := k.vPort
  sPort := k.sPort

def updateIpvsCollectMap (map : CollectMap) (k : LinkKey) (protocol : UInt16) (laddr : Ip) : CollectMap :=
  let key := collectKey k laddr
  let val := (map.lookup key).getD {}
  let val := { val with linkCount := val.linkCount + 1 }
  let val := { val with protocol }
  (map.update key val).getD map

def pullProbeData (walk : Enumeration LinkKey LinkValue ipvsMaxEntries) (fuel : Nat) (map : LinkMap)
    (collect : CollectMap) : Option (LinkMap × CollectMap) :=
  pull walk isClosed
    (fun collect key value => updateIpvsCollectMap collect key value.protocol value.lAddr) {} fuel map collect

def collectLine (host : ByteOrder) (nextKey : CollectKey) (value : CollectValue) : Bytes :=
  row [ascii "ipvs_link", ascii "ipvs", ipStr nextKey.family.toNat nextKey.cAddr,
    ipStr nextKey.family.toNat nextKey.vAddr, ipStr nextKey.family.toNat nextKey.lAddr,
    ipStr nextKey.family.toNat nextKey.sAddr, port host nextKey.vPort, port host nextKey.sPort,
    decimal value.protocol.toNat, decimal value.linkCount.toNat]

def printIpvsCollect (host : ByteOrder) (walk : Enumeration CollectKey CollectValue ipvsMaxEntries) (fuel : Nat)
    (map : CollectMap) : Option (CollectMap × List Bytes) :=
  print walk (collectLine host) {} fuel map

def cycle (host : ByteOrder) (walkLinks : Enumeration LinkKey LinkValue ipvsMaxEntries)
    (walkCollect : Enumeration CollectKey CollectValue ipvsMaxEntries) (fuel : Nat) (map : LinkMap) :
    Option (Cycle LinkKey LinkValue CollectKey CollectValue ipvsMaxEntries ipvsMaxEntries) :=
  turn (pullProbeData walkLinks fuel map .empty) (printIpvsCollect host walkCollect fuel)

end Ipvs

end GalaGopher.Ebpf.LoadBalancer
