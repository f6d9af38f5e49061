import GalaGopher.Text.Lines
import GalaGopher.Text.Memory
import GalaGopher.Text.Scan
import GalaGopher.Text.Search

namespace GalaGopher.Probe.SystemInfos

open Text

def lineBufLen : Nat := 512

def netDeviceNameSize : Nat := 16

def colon : UInt8 := 58

/-- The counters of a device that are kept. -/
@[ext] structure NetCounters where
  rxBytes : UInt64 := 0
  rxPackets : UInt64 := 0
  rxErrs : UInt64 := 0
  rxDropped : UInt64 := 0
  txBytes : UInt64 := 0
  txPackets : UInt64 := 0
  txErrs : UInt64 := 0
  txDropped : UInt64 := 0
deriving DecidableEq

/-- `net_dev_stat`, without the fields that nothing uses. -/
structure NetDevStat extends NetCounters where
  devName : Memory netDeviceNameSize := fun _ => 0

/-- The bytes in front of the colon without the spaces. -/
def nameBytes (devinfo : Bytes) : Bytes :=
  (devinfo.takeWhile fun byte => byte ≠ colon ∧ byte ≠ 0).filter fun byte => byte ≠ space

/-- What the eight conversions that store do with the numbers that were read. -/
def storeCounters (numbers : List UInt64) (stats : NetCounters) : NetCounters where
  rxBytes := numbers[0]?.getD stats.rxBytes
  rxPackets := numbers[1]?.getD stats.rxPackets
  rxErrs := numbers[2]?.getD stats.rxErrs
  rxDropped := numbers[3]?.getD stats.rxDropped
  txBytes := numbers[8]?.getD stats.txBytes
  txPackets := numbers[9]?.getD stats.txPackets
  txErrs := numbers[10]?.getD stats.txErrs
  txDropped := numbers[11]?.getD stats.txDropped

/-- The numbers of `"%*s %llu ..."`. -/
def scanFields (devinfo : Bytes) : List UInt64 :=
  match scanWord devinfo with
  | none => []
  | some rest => scanLlus 16 rest

/-- `none` is a write behind the name. -/
def getNetdevFileds (devinfo : Bytes) (stats : NetDevStat) : Option NetDevStat :=
  let name := nameBytes devinfo
  if name.length ≤ netDeviceNameSize then
    some
      { storeCounters (scanFields devinfo) stats.toNetCounters with
        devName := stats.devName.copyAt 0 name }
  else none

def NetCounters.minus (stats temp : NetCounters) : NetCounters where
  rxBytes := stats.rxBytes - temp.rxBytes
  rxPackets := stats.rxPackets - temp.rxPackets
  rxErrs := stats.rxErrs - temp.rxErrs
  rxDropped := stats.rxDropped - temp.rxDropped
  txBytes := stats.txBytes - temp.txBytes
  txPackets := stats.txPackets - temp.txPackets
  txErrs := stats.txErrs - temp.txErrs
  txDropped := stats.txDropped - temp.txDropped

/-- What a line that is printed carries. -/
structure NetLine where
  devName : Bytes
  deltas : NetCounters

/-- `"|%6s|%s|%llu|...|\n"` -/
def NetLine.text (line : NetLine) : Bytes :=
  let deltas := [line.deltas.rxBytes, line.deltas.rxPackets, line.deltas.rxErrs, line.deltas.rxDropped,
    line.deltas.txBytes, line.deltas.txPackets, line.deltas.txErrs, line.deltas.txDropped]
  ascii "|" ++ padLeft 6 (ascii "system_net") ++ ascii "|" ++ line.devName ++
    deltas.flatMap (fun delta => ascii "|" ++ ascii (toString delta.toNat)) ++ ascii "|\n"

def netLine (stats temp : NetDevStat) : NetLine where
  devName := cString (stats.devName.after 0)
  deltas := stats.minus temp.toNetCounters

def passedOver (line : Bytes) : Bool :=
  (strstr line (ascii "Inter")).isSome || (strstr line (ascii "face")).isSome || (strstr line (ascii "lo")).isSome

structure NetResult where
  stats : List NetDevStat
  printed : List NetLine
  ret : Int32

/-- The loop of `system_net_probe` over what `fgets` returns; `none` is an
access outside of the table. -/
def netLoop (num : Nat) : List Bytes → Nat → List NetDevStat → Option NetResult
  | [], _, stats => some { stats, printed := [], ret := 0 }
  | line :: lines, index, stats =>
      if passedOver line then netLoop num lines index stats
      else if index ≥ num then some { stats, printed := [], ret := -1 }
      else
        match stats[index]? with
        | none => none
        | some temp =>
            match getNetdevFileds line temp with
            | none => none
            | some now =>
                (netLoop num lines (index + 1) (stats.set index now)).map fun result =>
                  { result with printed := netLine now temp :: result.printed }

def systemNetProbe (num : Nat) (file : Bytes) (stats : List NetDevStat) : Option NetResult :=
  netLoop num (fgetsStrings lineBufLen file) 0 stats

def initialStats (num : Nat) : List NetDevStat := List.replicate num {}

/-- The table after calls that all succeed. -/
def probesFrom (num : Nat) (files : List Bytes) (table : List NetDevStat) : Option (List NetDevStat) :=
  files.foldlM (fun stats file =>
    match systemNetProbe num file stats with
    | some result => if result.ret = 0 then some result.stats else none
    | none => none) table

def afterProbes (num : Nat) (files : List Bytes) : Option (List NetDevStat) := probesFrom num files (initialStats num)

/-- A device, with the counters that are not kept in the order in which they are
written. -/
structure Device where
  name : Bytes
  counters : NetCounters
  rxOthers : Vector UInt64 4
  txOthers : Vector UInt64 4
  filled : name ≠ []
  short : name.length ≤ 15
  plain : ∀ byte ∈ name, byte ≠ colon ∧ byte ≠ 0 ∧ isSpace byte = false

namespace Device

def numbers (device : Device) : List (Nat × UInt64) :=
  [(7, device.counters.rxBytes), (7, device.counters.rxPackets), (4, device.counters.rxErrs),
    (4, device.counters.rxDropped), (4, device.rxOthers[0]), (5, device.rxOthers[1]), (10, device.rxOthers[2]),
    (9, device.rxOthers[3]), (8, device.counters.txBytes), (7, device.counters.txPackets), (4, device.counters.txErrs),
    (4, device.counters.txDropped), (4, device.txOthers[0]), (5, device.txOthers[1]), (7, device.txOthers[2]),
    (10, device.txOthers[3])]

def line (device : Device) : Bytes := padLeft 6 device.name ++ colon :: columns device.numbers

def loopback : Bytes := ascii "lo"

end Device

structure Snapshot where
  devices : List Device
  distinct : (devices.map Device.name).Nodup

namespace Snapshot

def headers : List Bytes :=
  [ascii "Inter-|   Receive                                                |  Transmit",
    ascii " face |bytes    packets errs drop fifo frame compressed multicast|bytes    packets errs drop fifo colls carrier compressed"]

def file (snapshot : Snapshot) : Bytes := printLines (headers ++ snapshot.devices.map Device.line)

def others (snapshot : Snapshot) : List Device := snapshot.devices.filter fun device => device.name ≠ Device.loopback

end Snapshot

end GalaGopher.Probe.SystemInfos
