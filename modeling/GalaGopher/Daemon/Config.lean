import GalaGopher.Daemon.Keeplive
import GalaGopher.Text.Bytes
import Mathlib.Data.List.Forall2

namespace GalaGopher.Daemon.Config

open Text

/-! The configuration file, from the settings libconfig has read.

A setting that is missing or of another type is `none`, and so is a missing
section. -/

structure GlobalSettings where
  logDirectory : Option Bytes
  pinPath : Option Bytes

structure IngressSettings where
  interval : Option Int32

structure EgressSettings where
  interval : Option Int32
  timeRange : Option Int32

structure KafkaSettings where
  kafkaBroker : Option Bytes
  kafkaTopic : Option Bytes
  batchNumMessages : Option Int32
  compressionCodec : Option Bytes
  queueBufferingMaxMessages : Option Int32
  queueBufferingMaxKbytes : Option Int32
  queueBufferingMaxMs : Option Int32
  switch : Option Bytes

structure ProbeSettings where
  name : Option Bytes
  param : Option Bytes
  switch : Option Bytes

structure ExtendProbeSettings where
  name : Option Bytes
  command : Option Bytes
  param : Option Bytes
  switch : Option Bytes
  startCheck : Option Bytes := none
  checkType : Option Bytes := none

structure ImdbSettings where
  maxTablesNum : Option Int32
  maxRecordsNum : Option Int32
  maxMetricsNum : Option Int32
  recordTimeout : Option Int32

structure WebServerSettings where
  port : Option Int32
  switch : Option Bytes

structure ConfigFile where
  global : Option GlobalSettings
  ingress : Option IngressSettings
  egress : Option EgressSettings
  kafka : Option KafkaSettings
  probes : Option (List ProbeSettings)
  extendProbes : Option (List ExtendProbeSettings)
  imdb : Option ImdbSettings
  webServer : Option WebServerSettings

def maxProbesNum : Nat := 32

def maxExtendProbesNum : Nat := 32

structure GlobalConfig where
  logDirectory : CharArray 128
  bpfPinPath : CharArray 128

structure IngressConfig where
  interval : UInt32

structure EgressConfig where
  interval : UInt32
  timeRange : UInt32

inductive KafkaSwitch where
  | on
  | off
deriving DecidableEq

structure KafkaConfig where
  broker : CharArray 32
  topic : CharArray 32
  batchNumMessages : UInt32
  compressionCodec : CharArray 32
  queueBufferingMaxMessages : UInt32
  queueBufferingMaxKbytes : UInt32
  queueBufferingMaxMs : UInt32
  kafkaSwitch : KafkaSwitch

structure ProbeConfig where
  name : CharArray 32
  probeSwitch : ProbeSwitch
  param : CharArray 128

/-- As it is cleared, `startChkType` is that of a count. -/
structure ExtendProbeConfig where
  name : CharArray 32
  command : CharArray 128
  param : CharArray 128
  startChkCmd : CharArray 128 := .ofText 128 []
  startChkType : ProbeStartCheckType := .cnt
  probeSwitch : ProbeSwitch

structure ImdbConfig where
  maxTablesNum : UInt32
  maxRecordsNum : UInt32
  maxMetricsNum : UInt32
  recordTimeout : UInt32 := 0

structure WebServerConfig where
  port : UInt16
  on : Bool

structure ConfigMgr where
  globalConfig : GlobalConfig
  ingressConfig : IngressConfig
  egressConfig : EgressConfig
  kafkaConfig : KafkaConfig
  probesConfig : List ProbeConfig
  extendProbesConfig : List ExtendProbeConfig
  imdbConfig : ImdbConfig
  webServerConfig : WebServerConfig

-- Each section has its own loader, which fails at the first setting that is
-- not there.

def configMgrLoadGlobalConfig (settings : GlobalSettings) : Option GlobalConfig := do
  let logDirectory ← settings.logDirectory
  let pinPath ← settings.pinPath
  return { logDirectory := .ofText 128 logDirectory, bpfPinPath := .ofText 128 pinPath }

def configMgrLoadIngressConfig (settings : IngressSettings) : Option IngressConfig := do
  let interval ← settings.interval
  return { interval := interval.toUInt32 }

def configMgrLoadEgressConfig (settings : EgressSettings) : Option EgressConfig := do
  let interval ← settings.interval
  let timeRange ← settings.timeRange
  return { interval := interval.toUInt32, timeRange := timeRange.toUInt32 }

def on : Bytes := ascii "on"

def auto : Bytes := ascii "auto"

def count : Bytes := ascii "count"

def configMgrLoadKafkaConfig (settings : KafkaSettings) : Option KafkaConfig := do
  let broker ← settings.kafkaBroker
  let topic ← settings.kafkaTopic
  let batchNumMessages ← settings.batchNumMessages
  let compressionCodec ← settings.compressionCodec
  let queueBufferingMaxMessages ← settings.queueBufferingMaxMessages
  let queueBufferingMaxKbytes ← settings.queueBufferingMaxKbytes
  let queueBufferingMaxMs ← settings.queueBufferingMaxMs
  let switch ← settings.switch
  return {
    broker := .ofText 32 broker
    topic := .ofText 32 topic
    batchNumMessages := batchNumMessages.toUInt32
    compressionCodec := .ofText 32 compressionCodec
    queueBufferingMaxMessages := queueBufferingMaxMessages.toUInt32
    queueBufferingMaxKbytes := queueBufferingMaxKbytes.toUInt32
    queueBufferingMaxMs := queueBufferingMaxMs.toUInt32
    kafkaSwitch := if switch = on then .on else .off }

/-- A switch that is neither means off. -/
def probeSwitch (switch : Bytes) : ProbeSwitch :=
  if switch = auto then .auto else if switch = on then .on else .off

/-- The loop over the elements of a list, which is left where the array is
full. -/
def loadElements {σ γ : Type} (max : Nat) (load : σ → Option γ) (loaded : List γ) : List σ → Option (List γ)
  | [] => some loaded
  | element :: rest =>
      if loaded.length = max then none
      else (load element).bind fun config => loadElements max load (loaded ++ [config]) rest

def loadProbeConfig (settings : ProbeSettings) : Option ProbeConfig := do
  let name ← settings.name
  let param ← settings.param
  let switch ← settings.switch
  return { name := .ofText 32 name, param := .ofText 128 param, probeSwitch := probeSwitch switch }

def configMgrLoadProbesConfig (settings : List ProbeSettings) : Option (List ProbeConfig) :=
  loadElements maxProbesNum loadProbeConfig [] settings

/-- What a check is by is asked for with the switch on `auto` only. -/
def loadStartCheck (settings : ExtendProbeSettings) (config : ExtendProbeConfig) : ExtendProbeConfig :=
  if config.probeSwitch ≠ .auto then config
  else
    let config := { config with startChkType := .max }
    match settings.startCheck with
    | none => config
    | some startCheck =>
        let config := { config with startChkCmd := .ofText 128 startCheck }
        if settings.checkType = some count then { config with startChkType := .cnt } else config

def loadExtendProbeConfig (settings : ExtendProbeSettings) : Option ExtendProbeConfig := do
  let name ← settings.name
  let command ← settings.command
  let param ← settings.param
  let switch ← settings.switch
  return loadStartCheck settings
    { name := .ofText 32 name
      command := .ofText 128 command
      param := .ofText 128 param
      probeSwitch := probeSwitch switch }

def configMgrLoadExtendProbesConfig (settings : List ExtendProbeSettings) : Option (List ExtendProbeConfig) :=
  loadElements maxExtendProbesNum loadExtendProbeConfig [] settings

def configMgrLoadImdbConfig (settings : ImdbSettings) : Option ImdbConfig := do
  let maxTablesNum ← settings.maxTablesNum
  let maxRecordsNum ← settings.maxRecordsNum
  let maxMetricsNum ← settings.maxMetricsNum
  return {
    maxTablesNum := maxTablesNum.toUInt32
    maxRecordsNum := maxRecordsNum.toUInt32
    maxMetricsNum := maxMetricsNum.toUInt32
    recordTimeout := (settings.recordTimeout.map Int32.toUInt32).getD 0 }

def configMgrLoadWebServerConfig (settings : WebServerSettings) : Option WebServerConfig := do
  let port ← settings.port
  let switch ← settings.switch
  return { port := port.toUInt32.toUInt16, on := switch = on }

/-- The sections in the order of the handles. -/
def configMgrLoad (file : ConfigFile) : Option ConfigMgr := do
  let globalConfig ← file.global.bind configMgrLoadGlobalConfig
  let ingressConfig ← file.ingress.bind configMgrLoadIngressConfig
  let egressConfig ← file.egress.bind configMgrLoadEgressConfig
  let kafkaConfig ← file.kafka.bind configMgrLoadKafkaConfig
  let probesConfig ← file.probes.bind configMgrLoadProbesConfig
  let extendProbesConfig ← file.extendProbes.bind configMgrLoadExtendProbesConfig
  let imdbConfig ← file.imdb.bind configMgrLoadImdbConfig
  let webServerConfig ← file.webServer.bind configMgrLoadWebServerConfig
  return { globalConfig, ingressConfig, egressConfig, kafkaConfig, probesConfig, extendProbesConfig, imdbConfig,
           webServerConfig }

/-- Nothing is missing but what is not asked for, and no list is too long. -/
structure ConfigFile.Complete (file : ConfigFile) : Prop where
  global : ∃ settings, file.global = some settings ∧ settings.logDirectory.isSome ∧ settings.pinPath.isSome
  ingress : ∃ settings, file.ingress = some settings ∧ settings.interval.isSome
  egress : ∃ settings, file.egress = some settings ∧ settings.interval.isSome ∧ settings.timeRange.isSome
  kafka : ∃ settings, file.kafka = some settings ∧ settings.kafkaBroker.isSome ∧ settings.kafkaTopic.isSome ∧
    settings.batchNumMessages.isSome ∧ settings.compressionCodec.isSome ∧ settings.queueBufferingMaxMessages.isSome ∧
    settings.queueBufferingMaxKbytes.isSome ∧ settings.queueBufferingMaxMs.isSome ∧ settings.switch.isSome
  probes : ∃ settings, file.probes = some settings ∧ settings.length ≤ maxProbesNum ∧
    ∀ probe ∈ settings, probe.name.isSome ∧ probe.param.isSome ∧ probe.switch.isSome
  extendProbes : ∃ settings, file.extendProbes = some settings ∧ settings.length ≤ maxExtendProbesNum ∧
    ∀ probe ∈ settings, probe.name.isSome ∧ probe.command.isSome ∧ probe.param.isSome ∧ probe.switch.isSome
  imdb : ∃ settings, file.imdb = some settings ∧ settings.maxTablesNum.isSome ∧ settings.maxRecordsNum.isSome ∧
    settings.maxMetricsNum.isSome
  webServer : ∃ settings, file.webServer = some settings ∧ settings.port.isSome ∧ settings.switch.isSome

section Elements

variable {σ γ : Type} {max : Nat} {load : σ → Option γ}

/-- The elements are loaded one by one, if there is room for them all. -/
theorem loadElements_eq_some_iff {settings : List σ} {loaded configs : List γ} (within : loaded.length ≤ max) :
    loadElements max load loaded settings = some configs ↔
      ∃ more, configs = loaded ++ more ∧ List.Forall₂ (fun element config => load element = some config) settings more ∧
        loaded.length + settings.length ≤ max := by
  induction settings generalizing loaded with
  | nil =>
      rw [loadElements]
      constructor
      · intro same
        cases same
        exact ⟨[], (List.append_nil _).symm, .nil, within⟩
      · rintro ⟨more, rfl, each, _⟩
        cases each
        rw [List.append_nil]
  | cons element rest ih =>
      rw [loadElements]
      by_cases full : loaded.length = max
      · rw [if_pos full]
        refine iff_of_false nofun ?_
        rintro ⟨more, _, _, fits⟩
        rw [List.length_cons] at fits
        omega
      · rw [if_neg full, Option.bind_eq_some_iff]
        have room (config : γ) : (loaded ++ [config]).length ≤ max := by
          rw [List.length_append, List.length_singleton]
          omega
        constructor
        · rintro ⟨config, here, later⟩
          obtain ⟨more, rfl, each, fits⟩ := (ih (room config)).mp later
          refine ⟨config :: more, by rw [List.append_assoc, List.singleton_append], .cons here each, ?_⟩
          rw [List.length_append, List.length_singleton] at fits
          rw [List.length_cons]
          omega
        · rintro ⟨more, rfl, each, fits⟩
          cases each with
          | @cons _ config _ more here each =>
              refine ⟨config, here, (ih (room config)).mpr ⟨more, ?_, each, ?_⟩⟩
              · rw [List.append_assoc, List.singleton_append]
              · rw [List.length_append, List.length_singleton]
                rw [List.length_cons] at fits
                omega

theorem loadElements_nil_eq_some_iff {settings : List σ} {configs : List γ} :
    loadElements max load [] settings = some configs ↔
      List.Forall₂ (fun element config => load element = some config) settings configs ∧ settings.length ≤ max := by
  rw [loadElements_eq_some_iff (Nat.zero_le max)]
  simp

theorem isSome_loadElements_iff {settings : List σ} {loaded : List γ} (within : loaded.length ≤ max) :
    (loadElements max load loaded settings).isSome ↔
      loaded.length + settings.length ≤ max ∧ ∀ element ∈ settings, (load element).isSome := by
  induction settings generalizing loaded with
  | nil => exact iff_of_true rfl ⟨within, nofun⟩
  | cons element rest ih =>
      rw [loadElements, List.forall_mem_cons, List.length_cons]
      by_cases full : loaded.length = max
      · rw [if_pos full]
        exact iff_of_false nofun fun fits => by omega
      · rw [if_neg full]
        cases load element with
        | none => exact iff_of_false nofun fun given => nomatch given.2.1
        | some config =>
            have room : (loaded ++ [config]).length ≤ max := by
              rw [List.length_append, List.length_singleton]
              omega
            rw [Option.bind_some, ih room, List.length_append, List.length_singleton,
              show loaded.length + 1 + rest.length = loaded.length + (rest.length + 1) by omega]
            exact and_congr_right fun _ => (and_iff_right rfl).symm

theorem isSome_loadElements_nil_iff {settings : List σ} :
    (loadElements max load [] settings).isSome ↔ settings.length ≤ max ∧ ∀ element ∈ settings, (load element).isSome := by
  rw [isSome_loadElements_iff (Nat.zero_le max), List.length_nil, Nat.zero_add]

end Elements

section Given

variable {α β : Type} {first : Option α} {next : α → Option β} {rest : Prop}

theorem isSome_bind_iff : (first.bind next).isSome ↔ ∃ value, first = some value ∧ (next value).isSome := by
  cases first <;> simp

/-- What follows does not depend on the value. -/
theorem isSome_bind_given (each : ∀ value, (next value).isSome ↔ rest) :
    (first >>= next).isSome ↔ first.isSome ∧ rest := by
  cases first with
  | none => exact iff_of_false nofun fun both => nomatch both.1
  | some value => exact (each value).trans (and_iff_right rfl).symm

theorem isSome_bind_last {value : α → β} : (first >>= fun given => some (value given)).isSome ↔ first.isSome := by
  cases first <;> rfl

end Given

theorem isSome_loadProbeConfig_iff (settings : ProbeSettings) :
    (loadProbeConfig settings).isSome ↔ settings.name.isSome ∧ settings.param.isSome ∧ settings.switch.isSome :=
  isSome_bind_given fun _ => isSome_bind_given fun _ => isSome_bind_last

theorem isSome_loadExtendProbeConfig_iff (settings : ExtendProbeSettings) :
    (loadExtendProbeConfig settings).isSome ↔
      settings.name.isSome ∧ settings.command.isSome ∧ settings.param.isSome ∧ settings.switch.isSome :=
  isSome_bind_given fun _ => isSome_bind_given fun _ => isSome_bind_given fun _ => isSome_bind_last

theorem isSome_configMgrLoadKafkaConfig_iff (settings : KafkaSettings) :
    (configMgrLoadKafkaConfig settings).isSome ↔ settings.kafkaBroker.isSome ∧ settings.kafkaTopic.isSome ∧
      settings.batchNumMessages.isSome ∧ settings.compressionCodec.isSome ∧ settings.queueBufferingMaxMessages.isSome ∧
      settings.queueBufferingMaxKbytes.isSome ∧ settings.queueBufferingMaxMs.isSome ∧ settings.switch.isSome :=
  isSome_bind_given fun _ => isSome_bind_given fun _ => isSome_bind_given fun _ => isSome_bind_given fun _ =>
    isSome_bind_given fun _ => isSome_bind_given fun _ => isSome_bind_given fun _ => isSome_bind_last

theorem isSome_configMgrLoadImdbConfig_iff (settings : ImdbSettings) :
    (configMgrLoadImdbConfig settings).isSome ↔
      settings.maxTablesNum.isSome ∧ settings.maxRecordsNum.isSome ∧ settings.maxMetricsNum.isSome :=
  isSome_bind_given fun _ => isSome_bind_given fun _ => isSome_bind_last

theorem isSome_probes_iff (settings : List ProbeSettings) :
    (configMgrLoadProbesConfig settings).isSome ↔ settings.length ≤ maxProbesNum ∧
      ∀ probe ∈ settings, probe.name.isSome ∧ probe.param.isSome ∧ probe.switch.isSome := by
  simp only [configMgrLoadProbesConfig, isSome_loadElements_nil_iff, isSome_loadProbeConfig_iff]

theorem isSome_extendProbes_iff (settings : List ExtendProbeSettings) :
    (configMgrLoadExtendProbesConfig settings).isSome ↔ settings.length ≤ maxExtendProbesNum ∧
      ∀ probe ∈ settings, probe.name.isSome ∧ probe.command.isSome ∧ probe.param.isSome ∧ probe.switch.isSome := by
  simp only [configMgrLoadExtendProbesConfig, isSome_loadElements_nil_iff, isSome_loadExtendProbeConfig_iff]

/-- A file is loaded exactly when it is complete. -/
theorem isSome_configMgrLoad_iff (file : ConfigFile) : (configMgrLoad file).isSome ↔ file.Complete := by
  have sections : (configMgrLoad file).isSome ↔ _ :=
    isSome_bind_given fun _ => isSome_bind_given fun _ => isSome_bind_given fun _ => isSome_bind_given fun _ =>
      isSome_bind_given fun _ => isSome_bind_given fun _ => isSome_bind_given fun _ => isSome_bind_last
  have global (settings : GlobalSettings) : (configMgrLoadGlobalConfig settings).isSome ↔ _ :=
    isSome_bind_given fun _ => isSome_bind_last
  have ingress (settings : IngressSettings) : (configMgrLoadIngressConfig settings).isSome ↔ _ := isSome_bind_last
  have egress (settings : EgressSettings) : (configMgrLoadEgressConfig settings).isSome ↔ _ :=
    isSome_bind_given fun _ => isSome_bind_last
  have webServer (settings : WebServerSettings) : (configMgrLoadWebServerConfig settings).isSome ↔ _ :=
    isSome_bind_given fun _ => isSome_bind_last
  rw [sections]
  simp only [isSome_bind_iff, global, ingress, egress, isSome_configMgrLoadKafkaConfig_iff, isSome_probes_iff,
    isSome_extendProbes_iff, isSome_configMgrLoadImdbConfig_iff, webServer]
  constructor
  · rintro ⟨global, ingress, egress, kafka, probes, extendProbes, imdb, webServer⟩
    exact ⟨global, ingress, egress, kafka, probes, extendProbes, imdb, webServer⟩
  · rintro ⟨global, ingress, egress, kafka, probes, extendProbes, imdb, webServer⟩
    exact ⟨global, ingress, egress, kafka, probes, extendProbes, imdb, webServer⟩

end GalaGopher.Daemon.Config
