import GalaGopher.Daemon.Config
import GalaGopher.Data.Related
import GalaGopher.Ingress.Published
import GalaGopher.Meta.Reach
import GalaGopher.Probe.Args

namespace GalaGopher.Daemon.Start

open Text Data Imdb Meta Probe Ingress
open Config hiding ProbeConfig

inductive Task where
  | ingress
  | egress
  | webServer (port : UInt16)
  | probe (place : Nat)
  | extendProbe (place : Nat)
  | cmdServer
  | keepliveTimer
deriving DecidableEq

/-- The probes that the daemon is built with. -/
structure Builtins where
  names : List (CharArray 32)
  few : names.length ≤ maxProbesNum
  distinct : names.Nodup

/-- What start-up finds on the machine, and what it is answered. -/
structure Host where
  builtins : Builtins
  dlsym : Bytes → Bool
  metaDir : List (List MeasurementConfig)
  nodeInfo : Option NodeInfo
  kafkaCreated : KafkaConfig → Bool
  popen : Bytes → Option Bytes
  creates : Task → Bool

/-- The parameters are `none` as refused options leave them. -/
structure NativeProbe where
  name : CharArray 32
  probeSwitch : ProbeSwitch := .auto
  params : Option ProbeParams := some { period := 0 }

structure ResourceMgr where
  configMgr : ConfigMgr
  probeMgr : List NativeProbe
  extendProbeMgr : List ExtendProbeConfig
  mmMgr : MeasurementMgr
  kafkaMgr : Option KafkaConfig
  imdbMgr : DataBaseMgr
  recordTimeout : UInt32
  webServer : Option UInt16

variable {host : Host} {file : ConfigFile} {mgr : ResourceMgr}

def returned {α : Type} : Option α → Outcome α
  | none => .error .failed
  | some value => .ok value

def probeMain (name : Bytes) : Bytes := (ascii "probe_main_" ++ name).take 30

def probeMgrLoadProbes (host : Host) : Option (List NativeProbe) :=
  if host.builtins.names.all fun name => host.dlsym (probeMain name.text)
  then some (host.builtins.names.map fun name => { name })
  else none

/-- An entry of no known name is passed over. -/
def refreshProbe (probes : List NativeProbe) (config : Config.ProbeConfig) : Outcome (List NativeProbe) :=
  match probes.findIdx? fun probe => probe.name = config.name with
  | none => .ok probes
  | some place => do
      let params ← paramsParse config.param.text
      return probes.modify place fun probe => { probe with probeSwitch := config.probeSwitch, params }

def probeMgrInit (host : Host) (configMgr : ConfigMgr) : Outcome (List NativeProbe) := do
  let probes ← returned (probeMgrLoadProbes host)
  configMgr.probesConfig.foldlM refreshProbe probes

/-- An extended probe has the members of its entry. -/
def extendProbeMgrInit (configMgr : ConfigMgr) : Outcome (List ExtendProbeConfig) :=
  returned (loadElements maxExtendProbesNum some [] configMgr.extendProbesConfig)

def measurementMgrInit (host : Host) (configMgr : ConfigMgr) : Outcome MeasurementMgr :=
  measurementMgrLoad
    (measurementMgrCreate configMgr.imdbConfig.maxTablesNum.toNat configMgr.imdbConfig.maxMetricsNum.toNat) host.metaDir

def kafkaMgrInit (host : Host) (configMgr : ConfigMgr) : Outcome (Option KafkaConfig) :=
  if configMgr.kafkaConfig.kafkaSwitch = .off then .ok none
  else if host.kafkaCreated configMgr.kafkaConfig then .ok (some configMgr.kafkaConfig)
  else .error .failed

def imdbMgrInit (host : Host) (configMgr : ConfigMgr) (mmMgr : MeasurementMgr) : Outcome DataBaseMgr := do
  let nodeInfo ← returned host.nodeInfo
  imdbMgrDatabaseLoad
    { tblsCapability := configMgr.imdbConfig.maxTablesNum.toNat, tables := [], nodeInfo, webServerOn := false }
    configMgr.imdbConfig.maxRecordsNum.toNat mmMgr.measurements

def webServerInit (configMgr : ConfigMgr) : Option UInt16 :=
  if configMgr.webServerConfig.on then some configMgr.webServerConfig.port else none

def resourceMgrInit (host : Host) (file : ConfigFile) : Outcome ResourceMgr := do
  let configMgr ← returned (configMgrLoad file)
  let probeMgr ← probeMgrInit host configMgr
  let extendProbeMgr ← extendProbeMgrInit configMgr
  let mmMgr ← measurementMgrInit host configMgr
  let kafkaMgr ← kafkaMgrInit host configMgr
  let imdbMgr ← imdbMgrInit host configMgr mmMgr
  let webServer := webServerInit configMgr
  return {
    configMgr, probeMgr, extendProbeMgr, mmMgr, kafkaMgr
    imdbMgr := { imdbMgr with webServerOn := webServer.isSome }
    recordTimeout := if 0 < configMgr.imdbConfig.recordTimeout then configMgr.imdbConfig.recordTimeout else 60
    webServer }

-- `DaemonRun`, which goes back at the first thread that is not created, and
-- leaves those that are.

abbrev Launch := Except (List Task) (List Task)

def Host.create (host : Host) (running : List Task) (task : Task) : Launch :=
  if host.creates task then .ok (running ++ [task]) else .error running

/-- A loop over probes, which passes over those that are not to start. -/
def startEach {π : Type} (host : Host) (starts : π → Bool) (task : Nat → Task) : Nat → List π → List Task → Launch
  | _, [], running => .ok running
  | place, probe :: rest, running =>
      if starts probe = false then startEach host starts task (place + 1) rest running
      else do
        let running ← host.create running (task place)
        startEach host starts task (place + 1) rest running

def NativeProbe.starts (probe : NativeProbe) : Bool := probe.probeSwitch = .on

/-- What the loop over the extended probes goes by. -/
def startup (host : Host) (probe : ExtendProbeConfig) : ProbeConfig where
  probeSwitch := probe.probeSwitch
  chkType := probe.startChkType
  checked := host.popen probe.startChkCmd.text

def daemonRun (host : Host) (mgr : ResourceMgr) : Launch := do
  let running ← host.create [] .ingress
  let running ← host.create running .egress
  let running ←
    match mgr.webServer with
    | none => .ok running
    | some port => host.create running (.webServer port)
  let running ← startEach host NativeProbe.starts .probe 0 mgr.probeMgr running
  let running ← startEach host (fun probe => (startup host probe).needStart) .extendProbe 0 mgr.extendProbeMgr running
  let running ← host.create running .cmdServer
  host.create running .keepliveTimer

def named (name : CharArray 32) (settings : ProbeSettings) : Bool :=
  settings.name.map (CharArray.ofText 32) = some name

/-- The last entry of a name is the one that counts. -/
def entry (file : ConfigFile) (name : CharArray 32) : Option ProbeSettings :=
  ((file.probes.getD []).filter (named name)).getLast?

def selectsProbe (file : ConfigFile) (name : CharArray 32) : Bool := (entry file name).bind ProbeSettings.switch = some on

/-- The first line that the command prints is a number above zero. -/
def counts (host : Host) (startCheck : Bytes) : Bool :=
  match (host.popen (startCheck.take 127)).bind fun output => (fgetsStrings maxCommandLen output).head? with
  | none => false
  | some line => 0 < atoi line

def selectsExtendProbe (host : Host) (settings : ExtendProbeSettings) : Bool :=
  settings.switch = some on ∨
    settings.switch = some auto ∧ settings.checkType = some count ∧ settings.startCheck.any (counts host) = true

def webServerTask : Option WebServerSettings → List Task
  | some ⟨some port, some switch⟩ => if switch = on then [.webServer port.toUInt32.toUInt16] else []
  | _ => []

def tasks (host : Host) (file : ConfigFile) : List Task :=
  [.ingress, .egress] ++ webServerTask file.webServer ++
    (host.builtins.names.findIdxs (selectsProbe file)).map .probe ++
    ((file.extendProbes.getD []).findIdxs (selectsExtendProbe host)).map .extendProbe ++ [.cmdServer, .keepliveTimer]

/-- What a native probe is started with. -/
def Refreshed (file : ConfigFile) (name : CharArray 32) (probe : NativeProbe) : Prop :=
  match entry file name with
  | none => probe = { name }
  | some settings => ∃ param switch, settings.param = some param ∧ settings.switch = some switch ∧
      probe = {
        name
        probeSwitch := probeSwitch switch
        params := setOptions ((strtok (param.take 127) dash).map .ofToken) defaultParams }

/-- A table before any line. -/
def emptyBoard (capability : Nat) (mm : Measurement) : Board where
  name := mm.name.text.take 31
  fields := mm.fields.map fieldMetric
  capability
  rows := []

theorem foldlM_create (running tasks : List Task) :
    tasks.foldlM host.create running =
      if tasks.all host.creates then .ok (running ++ tasks) else .error (running ++ tasks.takeWhile host.creates) := by
  induction tasks generalizing running with
  | nil => rw [List.foldlM_nil, List.all_nil, if_pos rfl, List.append_nil]; rfl
  | cons task rest ih =>
      rw [List.foldlM_cons, Host.create, List.all_cons]
      by_cases created : host.creates task = true
      · rw [if_pos created, created, Bool.true_and, List.takeWhile_cons_of_pos created]
        refine (ih (running ++ [task])).trans ?_
        rw [List.append_assoc, List.append_assoc, List.singleton_append, List.singleton_append]
      · rw [if_neg created, if_neg (by simp [created]), List.takeWhile_cons_of_neg created, List.append_nil]
        rfl

theorem startEach_eq {π : Type} (starts : π → Bool) (task : Nat → Task) (place : Nat) (probes : List π) (running : List Task) :
    startEach host starts task place probes running =
      ((probes.findIdxs starts place).map task).foldlM host.create running := by
  induction probes generalizing place running with
  | nil => rfl
  | cons probe rest ih =>
      rw [startEach, List.findIdxs_cons]
      by_cases starting : starts probe = true
      · rw [if_neg (by simp [starting]), if_pos starting, List.map_cons, List.foldlM_cons]
        exact bind_congr fun running => ih (place + 1) running
      · rw [if_pos (by simpa using starting), if_neg starting, ih]

/-- The threads that a manager asks for. -/
def ResourceMgr.tasks (host : Host) (mgr : ResourceMgr) : List Task :=
  [.ingress, .egress] ++ (mgr.webServer.map Task.webServer).toList ++
    (mgr.probeMgr.findIdxs NativeProbe.starts).map .probe ++
    (mgr.extendProbeMgr.findIdxs fun probe => (startup host probe).needStart).map .extendProbe ++ [.cmdServer, .keepliveTimer]

theorem daemonRun_eq (host : Host) (mgr : ResourceMgr) :
    daemonRun host mgr = (mgr.tasks host).foldlM host.create [] := by
  rw [ResourceMgr.tasks, List.foldlM_append, List.foldlM_append, List.foldlM_append, List.foldlM_append]
  simp only [← startEach_eq, List.foldlM_cons, List.foldlM_nil, bind_assoc, bind_pure]
  rw [daemonRun]
  refine bind_congr fun running => bind_congr fun running => ?_
  cases mgr.webServer with
  | none => rfl
  | some port => simp

def NativeProbe.refreshed (probe : NativeProbe) (config : Config.ProbeConfig) : NativeProbe where
  name := probe.name
  probeSwitch := config.probeSwitch
  params := setOptions ((strtok config.param.text dash).map .ofToken) defaultParams

theorem refreshProbe_eq {probes : List NativeProbe} (distinct : (probes.map NativeProbe.name).Nodup)
    (config : Config.ProbeConfig) :
    refreshProbe probes config =
      .ok (probes.map fun probe => if probe.name = config.name then probe.refreshed config else probe) := by
  have alone : probes.Pairwise fun first second =>
      decide (first.name = config.name) = true → decide (second.name = config.name) = false := by
    refine (List.pairwise_map.mp distinct).imp fun different picked => ?_
    rw [decide_eq_true_eq] at picked
    rw [decide_eq_false_iff_not, ← picked]
    exact Ne.symm different
  have short : config.param.text.length < maxParamLen := Nat.lt_of_le_of_lt config.param.fits (by decide)
  have changed := modify_findIdx? (fun probe : NativeProbe => probe.refreshed config) alone
  rw [refreshProbe]
  simp only [decide_eq_true_eq] at changed
  rw [← changed, paramsParse, if_pos short]
  cases probes.findIdx? fun probe => decide (probe.name = config.name) <;> rfl

/-- One probe through all the entries. -/
def refreshAll (configs : List Config.ProbeConfig) (name : CharArray 32) : NativeProbe :=
  configs.foldl (fun probe config => if probe.name = config.name then probe.refreshed config else probe) { name }

theorem refreshAll_concat (configs : List Config.ProbeConfig) (config : Config.ProbeConfig) (name : CharArray 32) :
    refreshAll (configs ++ [config]) name =
      if (refreshAll configs name).name = config.name then (refreshAll configs name).refreshed config
      else refreshAll configs name := List.foldl_concat ..

/-- The last entry of the name leaves nothing of those before it. -/
theorem refreshAll_eq (configs : List Config.ProbeConfig) (name : CharArray 32) :
    refreshAll configs name =
      match (configs.filter fun config => config.name = name).getLast? with
      | none => { name }
      | some config => NativeProbe.refreshed { name } config := by
  induction configs using List.reverseRecOn with
  | nil => rfl
  | append_singleton configs config ih =>
      have same : (refreshAll configs name).name = name := by
        rw [ih]
        split <;> rfl
      rw [refreshAll_concat, same, List.filter_append]
      by_cases here : config.name = name
      · rw [if_pos here.symm, List.filter_cons_of_pos (by simpa using here), List.filter_nil, List.getLast?_concat,
          NativeProbe.refreshed, same]
        rfl
      · rw [if_neg (Ne.symm here), List.filter_cons_of_neg (by simpa using here), List.filter_nil, List.append_nil, ih]

theorem refreshAll_name (configs : List Config.ProbeConfig) (name : CharArray 32) : (refreshAll configs name).name = name := by
  rw [refreshAll_eq]
  split <;> rfl

theorem foldlM_refreshProbe {names : List (CharArray 32)} (distinct : names.Nodup) (configs : List Config.ProbeConfig) :
    configs.foldlM refreshProbe (names.map fun name => { name }) = .ok (names.map (refreshAll configs)) := by
  induction configs using List.reverseRecOn with
  | nil => rfl
  | append_singleton configs config ih =>
      have kept : ((names.map (refreshAll configs)).map NativeProbe.name).Nodup := by
        have same : names.map (NativeProbe.name ∘ refreshAll configs) = names :=
          (List.map_congr_left fun name _ => refreshAll_name configs name).trans (List.map_id' names)
        rw [List.map_map, same]
        exact distinct
      rw [List.foldlM_append, ih]
      refine (bind_pure _).trans ((refreshProbe_eq kept config).trans ?_)
      rw [List.map_map]
      exact congrArg Except.ok (List.map_congr_left fun name _ => (refreshAll_concat configs config name).symm)

theorem loadProbeConfig_eq_some {settings : ProbeSettings} {config : Config.ProbeConfig}
    (loaded : loadProbeConfig settings = some config) :
    ∃ name param switch, settings = ⟨some name, some param, some switch⟩ ∧
      config = ⟨.ofText 32 name, probeSwitch switch, .ofText 128 param⟩ := by
  obtain ⟨name, param, switch⟩ := settings
  simp only [loadProbeConfig, bind, Option.bind_eq_some_iff] at loaded
  obtain ⟨name, rfl, param, rfl, switch, rfl, same⟩ := loaded
  exact ⟨name, param, switch, rfl, (Option.some.inj same).symm⟩

theorem probeSwitch_on_iff (switch : Bytes) : probeSwitch switch = .on ↔ switch = on := by
  have other : auto ≠ on := by decide
  unfold probeSwitch
  split
  case isTrue here => exact iff_of_false nofun fun same => other (here.symm.trans same)
  case isFalse =>
      split
      case isTrue here => exact iff_of_true rfl here
      case isFalse elsewhere => exact iff_of_false nofun elsewhere

theorem probeSwitch_auto_iff (switch : Bytes) : probeSwitch switch = .auto ↔ switch = auto := by
  unfold probeSwitch
  split
  case isTrue here => exact iff_of_true rfl here
  case isFalse elsewhere => split <;> exact iff_of_false nofun elsewhere

/-- Each native probe is started with what its last entry gives. -/
theorem refreshAll_refreshed {settings : List ProbeSettings} {configs : List Config.ProbeConfig}
    (given : file.probes = some settings)
    (each : List.Forall₂ (fun element config => loadProbeConfig element = some config) settings configs)
    (name : CharArray 32) : Refreshed file name (refreshAll configs name) := by
  have alike (element : ProbeSettings) (config : Config.ProbeConfig) (loaded : loadProbeConfig element = some config) :
      named name element = decide (config.name = name) := by
    obtain ⟨given, param, switch, rfl, rfl⟩ := loadProbeConfig_eq_some loaded
    simp [named]
  have last := getLast?_filter_related each alike
  have found : entry file name = (settings.filter (named name)).getLast? := by rw [entry, given]; rfl
  rw [Refreshed, refreshAll_eq, found]
  generalize (settings.filter (named name)).getLast? = chosen,
    (configs.filter fun config => decide (config.name = name)).getLast? = config at last
  cases last with
  | none => rfl
  | some loaded =>
      obtain ⟨given, param, switch, rfl, rfl⟩ := loadProbeConfig_eq_some loaded
      exact ⟨param, switch, rfl, rfl, rfl⟩

theorem Refreshed.selects {name : CharArray 32} {probe : NativeProbe} (refreshed : Refreshed file name probe) :
    selectsProbe file name = probe.starts := by
  rw [selectsProbe, NativeProbe.starts]
  rw [Refreshed] at refreshed
  cases chosen : entry file name with
  | none =>
      rw [chosen] at refreshed
      rw [refreshed]
      rfl
  | some settings =>
      rw [chosen] at refreshed
      obtain ⟨param, switch, _, switched, rfl⟩ := refreshed
      rw [Option.bind_some, switched]
      exact decide_eq_decide.mpr ((Option.some_inj).trans (probeSwitch_on_iff switch).symm)

theorem loadExtendProbeConfig_eq_some {settings : ExtendProbeSettings} {config : ExtendProbeConfig}
    (loaded : loadExtendProbeConfig settings = some config) :
    ∃ switch, settings.switch = some switch ∧ config.probeSwitch = probeSwitch switch ∧
      (switch = auto →
        (settings.startCheck = none ∧ config.startChkType = .max) ∨
        ∃ startCheck, settings.startCheck = some startCheck ∧ config.startChkCmd = .ofText 128 startCheck ∧
          config.startChkType = if settings.checkType = some count then .cnt else .max) := by
  obtain ⟨name, command, param, switch, startCheck, checkType⟩ := settings
  simp only [loadExtendProbeConfig, bind, Option.bind_eq_some_iff] at loaded
  obtain ⟨name, rfl, command, rfl, param, rfl, switch, rfl, same⟩ := loaded
  refine ⟨switch, rfl, ?_, fun automatic => ?_⟩
  · rw [← Option.some.inj same, loadStartCheck]
    split
    · rfl
    · cases startCheck with
      | none => rfl
      | some startCheck => simp only; split <;> rfl
  · have switched : probeSwitch switch = .auto := (probeSwitch_auto_iff switch).mpr automatic
    rw [← Option.some.inj same, loadStartCheck, if_neg (by simp [switched])]
    cases startCheck with
    | none => exact .inl ⟨rfl, rfl⟩
    | some startCheck =>
        refine .inr ⟨startCheck, rfl, ?_⟩
        by_cases counted : checkType = some count
        · simp [counted]
        · simp [counted]

theorem daemonCheckProbeNeedStart_cnt (startCheck : Bytes) :
    (daemonCheckProbeNeedStart .cnt (host.popen (startCheck.take 127)) = 1) = (counts host startCheck = true) := by
  rw [daemonCheckProbeNeedStart.eq_def, if_neg (by simp), counts]
  cases host.popen (startCheck.take 127) with
  | none => simp
  | some output =>
      simp only [Option.bind_some]
      cases fgetsStrings maxCommandLen output with
      | nil => simp
      | cons data rest => by_cases above : 0 < atoi data <;> simp [above]

theorem selectsExtendProbe_eq {settings : ExtendProbeSettings} {config : ExtendProbeConfig}
    (loaded : loadExtendProbeConfig settings = some config) :
    selectsExtendProbe host settings = (startup host config).needStart := by
  obtain ⟨switch, switched, kept, checked⟩ := loadExtendProbeConfig_eq_some loaded
  have other : auto ≠ on := by decide
  rw [selectsExtendProbe, switched, ProbeConfig.needStart, startup, kept]
  by_cases automatic : switch = auto
  · have notOn : switch ≠ on := fun same => other (automatic.symm.trans same)
    rw [(probeSwitch_auto_iff switch).mpr automatic]
    rcases checked automatic with ⟨unchecked, type⟩ | ⟨startCheck, given, command, type⟩
    · simp [unchecked, type, notOn, daemonCheckProbeNeedStart]
    · rw [given, command, type]
      by_cases counted : settings.checkType = some count
      · simp [automatic, counted, daemonCheckProbeNeedStart_cnt, other]
      · simp [counted, notOn, daemonCheckProbeNeedStart]
  · by_cases here : switch = on
    · simp [here, (probeSwitch_on_iff on).mpr rfl]
    · have off : probeSwitch switch = .off := by rw [probeSwitch, if_neg automatic, if_neg here]
      simp [here, automatic, off]

/-- A thread is created where one was selected, and again only after one has
ended. -/
structure Kept (selected : Bool) (deaths : Nat) (probe : ExtendProbe) : Prop where
  running : probe.isRunning = selected
  idle : selected = false → probe = {}
  begun : selected = true → probe.thread ≠ .unstarted ∧ 0 < probe.creations
  replaced : probe.creations ≤ deaths + if probe.thread = .live then 1 else 0

variable {selected : Bool} {deaths place : Nat} {probe : ExtendProbe} {state : State} {configs : List ProbeConfig}
  {events : List Event}

theorem started_kept (config : ProbeConfig) : Kept config.needStart 0 config.started := by
  rw [ProbeConfig.started]
  cases config.needStart with
  | false => exact ⟨rfl, fun _ => rfl, fun here => absurd here Bool.false_ne_true, Nat.le_refl _⟩
  | true => exact ⟨rfl, fun none => absurd none.symm Bool.false_ne_true, fun _ => ⟨by decide, Nat.one_pos⟩, Nat.le_refl _⟩

theorem Kept.ended (kept : Kept selected deaths probe) :
    Kept selected (deaths + 1) (if probe.thread = .live then { probe with thread := .ended } else probe) := by
  obtain ⟨running, idle, begun, replaced⟩ := kept
  split
  case isTrue live =>
      rw [if_pos live] at replaced
      refine ⟨running, fun unselected => ?_, fun here => ⟨nofun, (begun here).2⟩, replaced⟩
      rw [idle unselected] at live
      cases live
  case isFalse => exact ⟨running, idle, begun, replaced.trans (by omega)⟩

theorem Kept.pthreadCreate (kept : Kept selected deaths probe) (running : probe.isRunning = true)
    (dead : probe.thread = .ended) : Kept selected deaths probe.pthreadCreate where
  running := kept.running
  idle := fun unselected => by
    cases running.symm.trans (kept.running.trans unselected)
  begun := fun _ => ⟨nofun, Nat.succ_pos _⟩
  replaced := by
    have replaced := kept.replaced
    rw [dead, if_neg (by decide)] at replaced
    exact Nat.succ_le_succ replaced

/-- One probe at most is restarted, a running one whose thread has ended. -/
theorem keepliveLoop_cases (probes : List ExtendProbe) :
    keepliveLoop probes = (probes, none) ∨
      ∃ place probe, probes[place]? = some probe ∧ probe.isRunning = true ∧ probe.thread = .ended ∧
        keepliveLoop probes = (probes.modify place ExtendProbe.pthreadCreate, some place) := by
  induction probes with
  | nil => exact .inl rfl
  | cons first rest ih =>
      have passed (here : keepliveLoop (first :: rest) =
          (first :: (keepliveLoop rest).1, (keepliveLoop rest).2.map (· + 1))) :
          keepliveLoop (first :: rest) = (first :: rest, none) ∨
            ∃ place probe, (first :: rest)[place]? = some probe ∧ probe.isRunning = true ∧ probe.thread = .ended ∧
              keepliveLoop (first :: rest) = ((first :: rest).modify place ExtendProbe.pthreadCreate, some place) := by
        rw [here]
        rcases ih with none | ⟨place, probe, found, running, dead, restarted⟩
        · exact .inl (by rw [none]; rfl)
        · exact .inr ⟨place + 1, probe, found, running, dead, by rw [restarted]; rfl⟩
      by_cases running : first.isRunning = true
      · by_cases dead : first.thread = .ended
        · refine .inr ⟨0, first, rfl, running, dead, ?_⟩
          rw [keepliveLoop, if_neg (by simp [running]), ExtendProbe.pthreadKill, if_pos dead, if_pos rfl]
          rfl
        · refine passed ?_
          rw [keepliveLoop, if_neg (by simp [running]), ExtendProbe.pthreadKill, if_neg dead, if_neg (by decide)]
      · refine passed ?_
        rw [keepliveLoop, if_pos (by simpa using running)]

theorem step_kept (found : state.probes[place]? = some probe) (kept : Kept selected deaths probe) (event : Event) :
    ∃ after, (state.step event).probes[place]? = some after ∧ Kept selected (deaths + [event].count (.ended place)) after := by
  cases event with
  | ended other =>
      refine ⟨_, getElem?_modify_some found other _, ?_⟩
      by_cases here : other = place
      · subst other
        rw [if_pos rfl, List.count_singleton_self]
        exact kept.ended
      · rw [if_neg here, List.count_eq_zero_of_not_mem (by simp [Ne.symm here])]
        exact kept
  | keeplive =>
      have unended : [Event.keeplive].count (.ended place) = 0 := List.count_eq_zero_of_not_mem (by simp)
      rw [unended, State.step, State.daemonKeeplive]
      split
      case isTrue => exact ⟨probe, found, kept⟩
      case isFalse =>
          rcases keepliveLoop_cases state.probes with none | ⟨other, dead, there, running, ended, restarted⟩
          · rw [none]
            exact ⟨probe, found, kept⟩
          · rw [restarted]
            refine ⟨_, getElem?_modify_some found other _, ?_⟩
            by_cases here : other = place
            · subst other
              cases found.symm.trans there
              rw [if_pos rfl]
              exact kept.pthreadCreate running ended
            · rw [if_neg here]
              exact kept

theorem run_kept {config : ProbeConfig} (found : configs[place]? = some config) (events : List Event) :
    ∃ probe, (run configs events).probes[place]? = some probe ∧
      Kept config.needStart (events.count (.ended place)) probe := by
  induction events using List.reverseRecOn with
  | nil => exact ⟨config.started, by simp [run, Daemon.daemonRun, found], started_kept config⟩
  | append_singleton events event ih =>
      obtain ⟨probe, there, kept⟩ := ih
      rw [run_append, List.count_append]
      exact step_kept there kept event

theorem loaded_database {imdbMgr database : DataBaseMgr} {capability : Nat} {measurements : List Measurement}
    (bare : imdbMgr.tables = []) (loaded : imdbMgrDatabaseLoad imdbMgr capability measurements = .ok database) :
    Database (measurements.map (emptyBoard capability)) database := by
  obtain ⟨tables, printable⟩ := loaded_tables loaded
  rw [bare, List.nil_append] at tables
  refine ⟨?_⟩
  rw [tables, List.forall₂_map_left_iff, List.forall₂_map_right_iff]
  refine List.forall₂_same.mpr fun mm member => ?_
  obtain ⟨filled, prints⟩ := printable mm member
  have load := imdbMgrTableLoad_eq capability mm
  rw [if_neg filled, if_pos prints] at load
  obtain ⟨metaRecord, described⟩ := imdbMgrTableLoad_loaded load
  refine ⟨rfl, ⟨metaRecord, described, ?_⟩, rfl, .nil⟩
  rw [← Option.some.inj described.described]
  rfl

/-- What an initialisation that does not fail has done. -/
structure Initialised (host : Host) (file : ConfigFile) (mgr : ResourceMgr) : Prop where
  loaded : configMgrLoad file = some mgr.configMgr
  natives : probeMgrInit host mgr.configMgr = .ok mgr.probeMgr
  extended : loadElements maxExtendProbesNum some [] mgr.configMgr.extendProbesConfig = some mgr.extendProbeMgr
  measured : measurementMgrInit host mgr.configMgr = .ok mgr.mmMgr
  database : ∃ imdbMgr, imdbMgrInit host mgr.configMgr mgr.mmMgr = .ok imdbMgr ∧ mgr.imdbMgr.tables = imdbMgr.tables
  webServer : mgr.webServer = webServerInit mgr.configMgr

theorem returned_eq_ok_iff {α : Type} {first : Option α} {value : α} : returned first = .ok value ↔ first = some value := by
  cases first <;> simp [returned]

theorem resourceMgrInit_initialised (init : resourceMgrInit host file = .ok mgr) : Initialised host file mgr := by
  rw [resourceMgrInit] at init
  obtain ⟨configMgr, loaded, init⟩ := Outcome.bind_ok_iff.mp init
  obtain ⟨probeMgr, natives, init⟩ := Outcome.bind_ok_iff.mp init
  obtain ⟨extendProbeMgr, extended, init⟩ := Outcome.bind_ok_iff.mp init
  obtain ⟨mmMgr, measured, init⟩ := Outcome.bind_ok_iff.mp init
  obtain ⟨kafkaMgr, _, init⟩ := Outcome.bind_ok_iff.mp init
  obtain ⟨imdbMgr, database, init⟩ := Outcome.bind_ok_iff.mp init
  cases init
  exact ⟨returned_eq_ok_iff.mp loaded, natives, returned_eq_ok_iff.mp extended, measured, ⟨imdbMgr, database, rfl⟩, rfl⟩

/-- The sections that the threads depend on. -/
structure Sections (file : ConfigFile) (configMgr : ConfigMgr) : Prop where
  probes : ∃ settings, file.probes = some settings ∧
    List.Forall₂ (fun element config => loadProbeConfig element = some config) settings configMgr.probesConfig
  extendProbes : ∃ settings, file.extendProbes = some settings ∧
    List.Forall₂ (fun element config => loadExtendProbeConfig element = some config) settings configMgr.extendProbesConfig ∧
    settings.length ≤ maxExtendProbesNum
  webServer : ∃ settings, file.webServer = some settings ∧ configMgrLoadWebServerConfig settings = some configMgr.webServerConfig

theorem configMgrLoad_sections {configMgr : ConfigMgr} (loaded : configMgrLoad file = some configMgr) :
    Sections file configMgr := by
  simp only [configMgrLoad, bind, Option.bind_eq_some_iff] at loaded
  obtain ⟨global, _, ingress, _, egress, _, kafka, _, probes, ⟨entries, given, natives⟩, extendProbes,
    ⟨extends', listed, extended⟩, imdb, _, webServer, ⟨settings, set, served⟩, same⟩ := loaded
  cases same
  exact ⟨⟨entries, given, (loadElements_nil_eq_some_iff.mp natives).1⟩,
    ⟨extends', listed, loadElements_nil_eq_some_iff.mp extended⟩, ⟨settings, set, served⟩⟩

theorem webServerTask_eq {configMgr : ConfigMgr} (sections : Sections file configMgr) :
    webServerTask file.webServer = ((webServerInit configMgr).map Task.webServer).toList := by
  obtain ⟨⟨port, switch⟩, given, loaded⟩ := sections.webServer
  simp only [configMgrLoadWebServerConfig, bind, Option.bind_eq_some_iff] at loaded
  obtain ⟨port, rfl, switch, rfl, same⟩ := loaded
  rw [given, webServerTask, webServerInit, ← Option.some.inj same]
  by_cases here : switch = on <;> simp [here]

theorem Initialised.natives_eq (initialised : Initialised host file mgr) :
    mgr.probeMgr = host.builtins.names.map (refreshAll mgr.configMgr.probesConfig) := by
  have natives := initialised.natives
  rw [probeMgrInit, probeMgrLoadProbes] at natives
  obtain ⟨probes, known, refreshed⟩ := Outcome.bind_ok_iff.mp natives
  rw [returned_eq_ok_iff] at known
  split at known
  · cases known
    rw [foldlM_refreshProbe host.builtins.distinct] at refreshed
    exact (Except.ok.inj refreshed).symm
  · cases known

theorem Initialised.extended_eq (initialised : Initialised host file mgr) :
    mgr.extendProbeMgr = mgr.configMgr.extendProbesConfig := by
  have each := (loadElements_nil_eq_some_iff.mp initialised.extended).1
  exact (List.forall₂_eq_eq_eq ▸ each.imp fun _ _ => Option.some.inj : _ = _).symm

theorem Initialised.tasks_eq (initialised : Initialised host file mgr) : mgr.tasks host = tasks host file := by
  have sections := configMgrLoad_sections initialised.loaded
  obtain ⟨entries, given, natives⟩ := sections.probes
  obtain ⟨settings, listed, extended, _⟩ := sections.extendProbes
  have started : mgr.probeMgr.findIdxs NativeProbe.starts = host.builtins.names.findIdxs (selectsProbe file) := by
    rw [initialised.natives_eq]
    refine (findIdxs_related (List.forall₂_map_right_iff.mpr (List.forall₂_same.mpr fun name _ => ?_))
      (fun name probe refreshed => Refreshed.selects refreshed) 0).symm
    exact refreshAll_refreshed given natives name
  have begun : (mgr.extendProbeMgr.findIdxs fun probe => (startup host probe).needStart) =
      (file.extendProbes.getD []).findIdxs (selectsExtendProbe host) := by
    rw [initialised.extended_eq, listed]
    exact (findIdxs_related extended (fun _ _ => selectsExtendProbe_eq) 0).symm
  rw [ResourceMgr.tasks, tasks, started, begun, webServerTask_eq sections, initialised.webServer]

/-- The daemon runs what its file asks for, from the first thread on. -/
structure AsConfigured (host : Host) (file : ConfigFile) (mgr : ResourceMgr) : Prop where
  complete : file.Complete
  natives : List.Forall₂ (Refreshed file) host.builtins.names mgr.probeMgr
  launched : daemonRun host mgr =
    if (tasks host file).all host.creates then .ok (tasks host file) else .error ((tasks host file).takeWhile host.creates)
  kept : ∀ (events : List Event) (place : Nat) (settings : ExtendProbeSettings),
    (file.extendProbes.getD [])[place]? = some settings →
      ∃ probe, (run (mgr.extendProbeMgr.map (startup host)) events).probes[place]? = some probe ∧
        Kept (selectsExtendProbe host settings) (events.count (.ended place)) probe
  measured : List.Forall₂ Loads host.metaDir.flatten mgr.mmMgr.measurements
  served : Database (mgr.mmMgr.measurements.map (emptyBoard mgr.configMgr.imdbConfig.maxRecordsNum.toNat)) mgr.imdbMgr

theorem daemon_as_configured (init : resourceMgrInit host file = .ok mgr) : AsConfigured host file mgr := by
  have initialised := resourceMgrInit_initialised init
  have sections := configMgrLoad_sections initialised.loaded
  refine ⟨?_, ?_, ?_, ?_, ?_, ?_⟩
  case refine_1 =>
      rw [← isSome_configMgrLoad_iff, initialised.loaded]
      rfl
  case refine_2 =>
      obtain ⟨entries, given, natives⟩ := sections.probes
      rw [initialised.natives_eq, List.forall₂_map_right_iff]
      exact List.forall₂_same.mpr fun name _ => refreshAll_refreshed given natives name
  case refine_3 => rw [daemonRun_eq, initialised.tasks_eq, foldlM_create, List.nil_append, List.nil_append]
  case refine_4 =>
      intro events place settings found
      obtain ⟨entries, listed, extended, _⟩ := sections.extendProbes
      rw [listed, Option.getD_some] at found
      obtain ⟨config, there, loaded⟩ := getElem?_related extended found
      rw [selectsExtendProbe_eq loaded]
      refine run_kept ?_ events
      rw [List.getElem?_map, initialised.extended_eq, there]
      rfl
  case refine_5 =>
      obtain ⟨more, appended, loads⟩ := measurementMgrLoad_loads initialised.measured
      have all : mgr.mmMgr.measurements = more := appended
      rw [all]
      exact loads
  case refine_6 =>
      obtain ⟨imdbMgr, database, tables⟩ := initialised.database
      obtain ⟨nodeInfo, _, loaded⟩ := Outcome.bind_ok_iff.mp database
      refine ⟨?_⟩
      rw [tables]
      exact (loaded_database rfl loaded).tables

def sampleHost : Host where
  builtins := ⟨[.ofText 32 (ascii "example"), .ofText 32 (ascii "event")], by decide, by decide⟩
  dlsym := fun _ => true
  metaDir := [[⟨some (ascii "link"), some [⟨some (ascii "address"), some (ascii "key"), some (ascii "ip")⟩]⟩]]
  nodeInfo := some { machineId := .ofText 40 (ascii "m"), hostName := .ofText 64 (ascii "h") }
  kafkaCreated := fun _ => true
  popen := fun _ => some (ascii "2\n")
  creates := fun _ => true

/-- One probe is switched off by a later entry, and one is started on a check. -/
def sampleFile : ConfigFile where
  global := some ⟨some (ascii "/var/log"), some (ascii "/sys/fs/bpf")⟩
  ingress := some ⟨some 5⟩
  egress := some ⟨some 5, some 5⟩
  kafka := some ⟨some (ascii "localhost:9092"), some (ascii "gala"), some 1, some (ascii "none"), some 10, some 10, some 5,
    some (ascii "off")⟩
  probes := some [
    ⟨some (ascii "example"), some [], some (ascii "on")⟩,
    ⟨some (ascii "event"), some (ascii "-t 5"), some (ascii "on")⟩,
    ⟨some (ascii "example"), some [], some (ascii "off")⟩]
  extendProbes := some [
    { name := some (ascii "redis"), command := some (ascii "redis"), param := some [], switch := some (ascii "auto")
      startCheck := some (ascii "ps -ef | grep redis | wc -l"), checkType := some (ascii "count") },
    { name := some (ascii "tcp"), command := some (ascii "tcp"), param := some [], switch := some (ascii "off") }]
  imdb := some ⟨some 16, some 64, some 64, some 60⟩
  webServer := some ⟨some 8888, some (ascii "on")⟩

theorem daemon_as_configured_sample :
    ∃ mgr, resourceMgrInit sampleHost sampleFile = .ok mgr ∧
      daemonRun sampleHost mgr =
        .ok [.ingress, .egress, .webServer 8888, .probe 1, .extendProbe 0, .cmdServer, .keepliveTimer] := by
  have starts : (resourceMgrInit sampleHost sampleFile).toOption.isSome = true := by decide +kernel
  have selected : tasks sampleHost sampleFile =
      [.ingress, .egress, .webServer 8888, .probe 1, .extendProbe 0, .cmdServer, .keepliveTimer] := by decide +kernel
  cases init : resourceMgrInit sampleHost sampleFile with
  | error fault =>
      rw [init] at starts
      cases starts
  | ok mgr =>
      have launched := (daemon_as_configured init).launched
      rw [selected] at launched
      exact ⟨mgr, rfl, launched⟩

end GalaGopher.Daemon.Start
