import GalaGopher.Ebpf.Endpoint
import GalaGopher.Ebpf.LoadBalancer
import GalaGopher.Probe.Args
import GalaGopher.Probe.EventLog

namespace GalaGopher.Ebpf

open Text Probe LoadBalancer

/-- The arguments of `report_logs` besides the id. -/
structure Alarm where
  tblName : Bytes
  metrics : Bytes
  sec : EvtSec := .warn
  message : Bytes

structure LogCall where
  alarm : Alarm
  entityId : Bytes

/-- The buffer for the id, and the calls of `report_logs` so far. -/
structure Log where
  entityId : Bytes := []
  calls : List LogCall := []

namespace Log

def reportLogs (log : Log) (alarm : Alarm) : Log := { log with calls := log.calls ++ [{ alarm, entityId := log.entityId }] }

/-- The first branch of a chain builds the id. -/
def first (log : Log) (id : Bytes) (exceeded : Bool) (alarm : Alarm) : Log :=
  if exceeded then { log with entityId := id }.reportLogs alarm else log

/-- A later branch builds it if `entityId[0]` is set. -/
def later (log : Log) (id : Bytes) (exceeded : Bool) (alarm : Alarm) : Log :=
  if exceeded then
    let log := if log.entityId ≠ [] then { log with entityId := id } else log
    log.reportLogs alarm
  else
    log

end Log

/-- `%d` -/
def signed (number : Int32) : Bytes := ascii (toString number.toInt)

/-- A message that ends in its number. -/
def counting (text : String) (number : Nat) : Bytes := ascii text ++ ascii "(" ++ decimal number ++ ascii ")."

namespace Endpoint

def epEntityIdLen : Nat := 64

def listenName : Bytes := ascii "listen"

def connectName : Bytes := ascii "connect"

def udpBindName : Bytes := ascii "bind"

def udpName : Bytes := ascii "udp"

def buildEntityId (ep : Val) (bufLen : Nat) : Bytes :=
  let text :=
    match ep.key with
    | .tcpListen tgid port => signed tgid ++ ascii "_" ++ signed port
    | .tcpConnect tgid ipAddr | .udpServer tgid ipAddr | .udpClient tgid ipAddr =>
        signed tgid ++ ascii "_" ++ ipStr ipAddr.family.toUInt32.toNat ipAddr.ip
  text.take (bufLen - 1)

def listendrop (ep : Val) : Alarm where
  tblName := listenName
  metrics := ascii "listendrop"
  message := counting "TCP listen drops" (ep.epStats .listenDrops).toNat

def acceptOverflow (ep : Val) : Alarm where
  tblName := listenName
  metrics := ascii "accept_overflow"
  message := counting "TCP accept queue overflow" (ep.epStats .acceptOverflow).toNat

def synOverflow (ep : Val) : Alarm where
  tblName := listenName
  metrics := ascii "syn_overflow"
  message := counting "TCP syn queue overflow" (ep.epStats .synOverflow).toNat

def passiveOpenFailed (ep : Val) : Alarm where
  tblName := listenName
  metrics := ascii "passive_open_failed"
  message := counting "TCP passive open failed" (ep.epStats .passiveFails).toNat

def activeOpenFailed (ep : Val) : Alarm where
  tblName := connectName
  metrics := ascii "active_open_failed"
  message := counting "TCP active open failed" (ep.epStats .activeFails).toNat

def queRcvDrops (ep : Val) : Alarm where
  tblName := if ep.key.type = .listenUdp then udpBindName else udpName
  metrics := ascii "que_rcv_drops"
  message := counting (if ep.key.type = .listenUdp then "UDP(S) queue drops" else "UDP(C) queue drops")
    (ep.epStats .queRcvFailed).toNat

def reportEp (params : ProbeParams) (ep : Val) : List LogCall :=
  if !params.logs then
    []
  else
    let id := buildEntityId ep epEntityIdLen
    let log : Log := {}
    let log := log.first id (ep.epStats .listenDrops ≠ 0) (listendrop ep)
    let log := log.later id (ep.epStats .acceptOverflow ≠ 0) (acceptOverflow ep)
    let log := log.later id (ep.epStats .synOverflow ≠ 0) (synOverflow ep)
    let log := log.later id (ep.epStats .passiveFails ≠ 0) (passiveOpenFailed ep)
    let log := { log with entityId := [] }
    let log := log.first id (ep.epStats .activeFails ≠ 0) (activeOpenFailed ep)
    let log := { log with entityId := [] }
    let log := log.first id (ep.epStats .queRcvFailed ≠ 0) (queRcvDrops ep)
    log.calls

end Endpoint

namespace TcpProbe

def entityIdLen : Nat := 128

def ooTypeHealth : Bytes := ascii "tcp_link_health"

/-- The union of an address as it lies in memory. -/
def addressBytes (host : ByteOrder) : Address → Lvs.Ip
  | .ip6 bytes => bytes
  | .ip addr =>
      let first := [addr.toUInt8, (addr >>> 8).toUInt8, (addr >>> 16).toUInt8, (addr >>> 24).toUInt8]
      let bytes := match host with
        | .little => first
        | .big => first.reverse
      .ofFn fun place => bytes.getD place.val 0

def buildEntityId (host : ByteOrder) (link : TcpLink) (bufLen : Nat) : Bytes :=
  let srcIpStr := ipStr link.family.toNat (addressBytes host link.cIp)
  let dstIpStr := ipStr link.family.toNat (addressBytes host link.sIp)
  let text := decimal link.tgid.toNat ++ ascii "_" ++ decimal link.role.toNat ++ ascii "_" ++ srcIpStr ++ ascii "_" ++
    dstIpStr ++ ascii "_" ++ decimal link.cPort.toNat ++ ascii "_" ++ decimal link.sPort.toNat ++ ascii "_" ++
    decimal link.family.toNat
  text.take (bufLen - 1)

def tcpOomAlarm (th : TcpHealth) : Alarm where
  tblName := ooTypeHealth
  metrics := ascii "tcp_oom"
  message := counting "TCP out of memory" th.tcpOom.toNat

def backlogDropsAlarm (th : TcpHealth) : Alarm where
  tblName := ooTypeHealth
  metrics := ascii "backlog_drops"
  message := counting "TCP backlog queue drops" th.backlogDrops.toNat

/-- Under the metric of the backlog, as the source has it. -/
def filterDropsAlarm (th : TcpHealth) : Alarm where
  tblName := ooTypeHealth
  metrics := ascii "backlog_drops"
  message := counting "TCP filter drops" th.filterDrops.toNat

def overDrops (params : ProbeParams) (drops : UInt32) : Bool := params.dropsCountThr ≠ 0 ∧ drops > params.dropsCountThr

def reportTcpHealth (params : ProbeParams) (host : ByteOrder) (metrics : TcpMetrics) : List LogCall :=
  if !params.logs then
    []
  else
    let id := buildEntityId host metrics.link entityIdLen
    let th := metrics.data.health
    let log : Log := {}
    let log := log.first id (th.tcpOom ≠ 0) (tcpOomAlarm th)
    let log := log.later id (overDrops params th.backlogDrops) (backlogDropsAlarm th)
    let log := log.later id (overDrops params th.filterDrops) (filterDropsAlarm th)
    log.calls

end TcpProbe

/-- One call for each alarm, with the id of the entity. -/
structure Named (id : Bytes) (alarms : List Alarm) (calls : List LogCall) : Prop where
  alarms : calls.map LogCall.alarm = alarms
  entityId : ∀ call ∈ calls, call.entityId = id ∧ call.entityId ≠ []

def raised (exceeded : Bool) (alarm : Alarm) : List Alarm := if exceeded then [alarm] else []

theorem raised_eq_nil {exceeded : Bool} {alarm : Alarm} : raised exceeded alarm = [] ↔ exceeded = false := by
  cases exceeded <;> simp [raised]

/-- The calls for these alarms, with what the buffer holds. -/
def callsWith (entityId : Bytes) (alarms : List Alarm) : List LogCall := alarms.map fun alarm => { alarm, entityId }

namespace Log

variable {log : Log} {id : Bytes} {exceeded : Bool} {alarm : Alarm}

theorem first_eq (log : Log) (id : Bytes) (exceeded : Bool) (alarm : Alarm) : log.first id exceeded alarm =
    { entityId := if exceeded then id else log.entityId, calls := log.calls ++ callsWith id (raised exceeded alarm) } := by
  cases exceeded with
  | false => simp [first, raised, callsWith]
  | true => rfl

theorem first_known (exceeded : Bool) (id : Bytes) (calls : List LogCall) :
    (Log.mk (if exceeded then id else []) calls).entityId = [] ∨ (Log.mk (if exceeded then id else []) calls).entityId = id := by
  cases exceeded with
  | false => exact .inl rfl
  | true => exact .inr rfl

/-- A later branch leaves the buffer as it finds it. -/
theorem later_eq (known : log.entityId = [] ∨ log.entityId = id) (exceeded : Bool) (alarm : Alarm) :
    log.later id exceeded alarm =
      { log with calls := log.calls ++ callsWith log.entityId (raised exceeded alarm) } := by
  cases exceeded with
  | false => simp [later, raised, callsWith]
  | true =>
      by_cases empty : log.entityId = []
      · simp [later, reportLogs, raised, callsWith, empty]
      · have built := known.resolve_left empty
        subst built
        simp [later, reportLogs, raised, callsWith, empty]

end Log

theorem callsWith_alarms (entityId : Bytes) (alarms : List Alarm) :
    (callsWith entityId alarms).map LogCall.alarm = alarms := by
  rw [callsWith, List.map_map]
  exact List.map_id alarms

/-- A chain whose first branch builds the id and whose later branches use it. -/
theorem named_chain_iff {id : Bytes} (nonempty : id ≠ []) (built : Bool) (first later apart : List Alarm) :
    Named id (first ++ later ++ apart)
        (callsWith id first ++ callsWith (if built then id else []) later ++ callsWith id apart) ↔
      built ∨ later = [] := by
  have alarms : (callsWith id first ++ callsWith (if built then id else []) later ++ callsWith id apart).map
      LogCall.alarm = first ++ later ++ apart := by
    simp only [List.map_append, callsWith_alarms]
  cases built with
  | true =>
      refine ⟨fun _ => .inl rfl, fun _ => ⟨alarms, fun call member => ?_⟩⟩
      simp only [if_true, callsWith, List.mem_append, List.mem_map] at member
      have own : call.entityId = id := by
        rcases member with (⟨_, _, rfl⟩ | ⟨_, _, rfl⟩) | ⟨_, _, rfl⟩ <;> rfl
      exact ⟨own, by rwa [own]⟩
  | false =>
      refine ⟨fun named => .inr ?_, fun silent => ?_⟩
      · rw [List.eq_nil_iff_forall_not_mem]
        intro alarm member
        have call : (⟨alarm, []⟩ : LogCall) ∈ callsWith id first ++ callsWith [] later ++ callsWith id apart := by
          simp only [callsWith, List.mem_append, List.mem_map]
          exact .inl (.inr ⟨alarm, member, rfl⟩)
        exact (named.entityId _ call).2 rfl
      · have none : later = [] := by simpa using silent
        subst none
        refine ⟨alarms, fun call member => ?_⟩
        simp only [callsWith, List.mem_append, List.mem_map, List.map_nil, List.not_mem_nil, or_false] at member
        have own : call.entityId = id := by
          rcases member with ⟨_, _, rfl⟩ | ⟨_, _, rfl⟩ <;> rfl
        exact ⟨own, by rwa [own]⟩

theorem take_ne_nil {text : Bytes} {count : Nat} (nonempty : text ≠ []) (positive : 0 < count) : text.take count ≠ [] := by
  cases text with
  | nil => exact absurd rfl nonempty
  | cons byte rest =>
      obtain ⟨count, rfl⟩ := Nat.exists_eq_succ_of_ne_zero positive.ne'
      simp

namespace Endpoint

theorem buildEntityId_ne_nil (ep : Val) : buildEntityId ep epEntityIdLen ≠ [] := by
  have printed (tgid : Int32) (rest : Bytes) : signed tgid ++ rest ≠ [] := by
    have digits : signed tgid ≠ [] := printed_ne_nil _
    simp [digits]
  apply take_ne_nil _ (by decide)
  cases ep.key with
  | tcpListen tgid port =>
      dsimp only
      rw [List.append_assoc]
      exact printed tgid _
  | tcpConnect tgid ipAddr | udpServer tgid ipAddr | udpClient tgid ipAddr =>
      dsimp only
      rw [List.append_assoc]
      exact printed tgid _

/-- One alarm for each counter that is not zero. -/
def alarms (ep : Val) : List Alarm :=
  raised (ep.epStats .listenDrops ≠ 0) (listendrop ep) ++
    (raised (ep.epStats .acceptOverflow ≠ 0) (acceptOverflow ep) ++
      raised (ep.epStats .synOverflow ≠ 0) (synOverflow ep) ++
      raised (ep.epStats .passiveFails ≠ 0) (passiveOpenFailed ep)) ++
    (raised (ep.epStats .activeFails ≠ 0) (activeOpenFailed ep) ++
      raised (ep.epStats .queRcvFailed ≠ 0) (queRcvDrops ep))

theorem reportEp_eq {params : ProbeParams} (logs : params.logs) (ep : Val) : reportEp params ep =
    callsWith (buildEntityId ep epEntityIdLen) (raised (ep.epStats .listenDrops ≠ 0) (listendrop ep)) ++
      callsWith (if ep.epStats .listenDrops ≠ 0 then buildEntityId ep epEntityIdLen else [])
        (raised (ep.epStats .acceptOverflow ≠ 0) (acceptOverflow ep) ++
          raised (ep.epStats .synOverflow ≠ 0) (synOverflow ep) ++
          raised (ep.epStats .passiveFails ≠ 0) (passiveOpenFailed ep)) ++
      callsWith (buildEntityId ep epEntityIdLen)
        (raised (ep.epStats .activeFails ≠ 0) (activeOpenFailed ep) ++
          raised (ep.epStats .queRcvFailed ≠ 0) (queRcvDrops ep)) := by
  simp only [reportEp, logs, Bool.not_true, Bool.false_eq_true, if_false, Log.first_eq]
  rw [Log.later_eq (Log.first_known ..), Log.later_eq (Log.first_known ..), Log.later_eq (Log.first_known ..)]
  simp only [callsWith, List.map_append, List.nil_append, List.append_assoc, decide_eq_true_eq]

theorem reportEp_named_iff {params : ProbeParams} (logs : params.logs) (ep : Val) :
    Named (buildEntityId ep epEntityIdLen) (alarms ep) (reportEp params ep) ↔
      ep.epStats .listenDrops ≠ 0 ∨
        ep.epStats .acceptOverflow = 0 ∧ ep.epStats .synOverflow = 0 ∧ ep.epStats .passiveFails = 0 := by
  have chain := named_chain_iff (buildEntityId_ne_nil ep) (ep.epStats .listenDrops ≠ 0)
    (raised (ep.epStats .listenDrops ≠ 0) (listendrop ep))
    (raised (ep.epStats .acceptOverflow ≠ 0) (acceptOverflow ep) ++
      raised (ep.epStats .synOverflow ≠ 0) (synOverflow ep) ++
      raised (ep.epStats .passiveFails ≠ 0) (passiveOpenFailed ep))
    (raised (ep.epStats .activeFails ≠ 0) (activeOpenFailed ep) ++
      raised (ep.epStats .queRcvFailed ≠ 0) (queRcvDrops ep))
  simp only [decide_eq_true_eq] at chain
  rw [reportEp_eq logs, alarms, chain]
  simp [raised_eq_nil]

end Endpoint

namespace TcpProbe

theorem buildEntityId_ne_nil (host : ByteOrder) (link : TcpLink) : buildEntityId host link entityIdLen ≠ [] := by
  have digits : decimal link.tgid.toNat ≠ [] := printed_ne_nil (link.tgid.toNat : Int)
  rw [buildEntityId]
  refine take_ne_nil ?_ (by decide)
  simp only [ne_eq, List.append_eq_nil_iff, digits, false_and, not_false_eq_true]

/-- One alarm for each counter that is over its limit. -/
def healthAlarms (params : ProbeParams) (th : TcpHealth) : List Alarm :=
  raised (th.tcpOom ≠ 0) (tcpOomAlarm th) ++
    (raised (overDrops params th.backlogDrops) (backlogDropsAlarm th) ++
      raised (overDrops params th.filterDrops) (filterDropsAlarm th))

theorem reportTcpHealth_named_iff {params : ProbeParams} (logs : params.logs) (host : ByteOrder) (metrics : TcpMetrics) :
    Named (buildEntityId host metrics.link entityIdLen) (healthAlarms params metrics.data.health)
        (reportTcpHealth params host metrics) ↔
      metrics.data.health.tcpOom ≠ 0 ∨
        ¬ overDrops params metrics.data.health.backlogDrops ∧ ¬ overDrops params metrics.data.health.filterDrops := by
  have chain := named_chain_iff (buildEntityId_ne_nil host metrics.link) (metrics.data.health.tcpOom ≠ 0)
    (raised (metrics.data.health.tcpOom ≠ 0) (tcpOomAlarm metrics.data.health))
    (raised (overDrops params metrics.data.health.backlogDrops) (backlogDropsAlarm metrics.data.health) ++
      raised (overDrops params metrics.data.health.filterDrops) (filterDropsAlarm metrics.data.health)) []
  have calls : reportTcpHealth params host metrics =
      callsWith (buildEntityId host metrics.link entityIdLen)
        (raised (metrics.data.health.tcpOom ≠ 0) (tcpOomAlarm metrics.data.health)) ++
      callsWith (if metrics.data.health.tcpOom ≠ 0 then buildEntityId host metrics.link entityIdLen else [])
        (raised (overDrops params metrics.data.health.backlogDrops) (backlogDropsAlarm metrics.data.health) ++
          raised (overDrops params metrics.data.health.filterDrops) (filterDropsAlarm metrics.data.health)) := by
    simp only [reportTcpHealth, logs, Bool.not_true, Bool.false_eq_true, if_false, Log.first_eq]
    rw [Log.later_eq (Log.first_known ..), Log.later_eq (Log.first_known ..)]
    simp only [callsWith, List.map_append, List.nil_append, List.append_assoc, decide_eq_true_eq]
  simp only [decide_eq_true_eq, callsWith, List.map_nil, List.append_nil] at chain
  rw [calls, healthAlarms]
  simp only [callsWith]
  rw [chain]
  simp [raised_eq_nil]

end TcpProbe

open Endpoint TcpProbe in
theorem every_event_names_its_entity {params : ProbeParams} (logs : params.logs) (host : ByteOrder) (ep : Val)
    (metrics : TcpMetrics) :
    (Named (Endpoint.buildEntityId ep epEntityIdLen) (alarms ep) (reportEp params ep) ↔
      ep.epStats .listenDrops ≠ 0 ∨
        ep.epStats .acceptOverflow = 0 ∧ ep.epStats .synOverflow = 0 ∧ ep.epStats .passiveFails = 0) ∧
    (Named (TcpProbe.buildEntityId host metrics.link entityIdLen) (healthAlarms params metrics.data.health)
        (reportTcpHealth params host metrics) ↔
      metrics.data.health.tcpOom ≠ 0 ∨
        ¬ overDrops params metrics.data.health.backlogDrops ∧ ¬ overDrops params metrics.data.health.filterDrops) :=
  ⟨reportEp_named_iff logs ep, reportTcpHealth_named_iff logs host metrics⟩

/-- One listener, with these counts. -/
def listenerWith (epStats : Endpoint.Stats) : Endpoint.Val := { ts := 0, key := .tcpListen 1 80, epStats }

open Endpoint in
theorem every_event_names_its_entity_drops :
    Named (Endpoint.buildEntityId (listenerWith (Stats.zero.add .listenDrops 1)) epEntityIdLen)
      (alarms (listenerWith (Stats.zero.add .listenDrops 1)))
      (reportEp { logs := true } (listenerWith (Stats.zero.add .listenDrops 1))) :=
  (@every_event_names_its_entity { logs := true } rfl .little (listenerWith (Stats.zero.add .listenDrops 1))
    { ts := 0, link := {}, data := {} }).1.mpr (.inl (by decide))

open Endpoint in
/-- An accept overflow alone is logged for no entity. -/
theorem overflow_names_no_entity :
    ¬ Named (Endpoint.buildEntityId (listenerWith (Stats.zero.add .acceptOverflow 1)) epEntityIdLen)
      (alarms (listenerWith (Stats.zero.add .acceptOverflow 1)))
      (reportEp { logs := true } (listenerWith (Stats.zero.add .acceptOverflow 1))) := by
  rw [reportEp_named_iff rfl]
  decide

end GalaGopher.Ebpf
