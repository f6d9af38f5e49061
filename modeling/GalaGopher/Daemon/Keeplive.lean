import GalaGopher.Text.Lines
import GalaGopher.Text.Options
import Mathlib.Data.List.Induction

namespace GalaGopher.Daemon

open Text

/-! The threads of the extended probes, and the handler of the timer that looks
after them. -/

def maxCommandLen : Nat := 1024

inductive ProbeSwitch where
  | auto
  | on
  | off
deriving DecidableEq

inductive ProbeStartCheckType where
  | cnt
  | max
deriving DecidableEq

/-- What a probe is started by; `checked` is what its command prints, if it has
one that can be run. -/
structure ProbeConfig where
  probeSwitch : ProbeSwitch
  chkType : ProbeStartCheckType := .cnt
  checked : Option Bytes := none

def daemonCheckProbeNeedStart (chkType : ProbeStartCheckType) (checked : Option Bytes) : Int32 :=
  if chkType ≠ .cnt then 0
  else
    match checked with
    | none => 0
    | some output =>
        match fgetsStrings maxCommandLen output with
        | [] => 0
        | data :: _ => if 0 < atoi data then 1 else 0

/-- Whether `pthread_create` is come to. -/
def ProbeConfig.needStart (config : ProbeConfig) : Bool :=
  match config.probeSwitch with
  | .off => false
  | .on => true
  | .auto => daemonCheckProbeNeedStart config.chkType config.checked = 1

inductive Thread where
  | unstarted
  | live
  | ended
deriving DecidableEq

/-- The thread that `tid` is of, and how often one was created. -/
structure ExtendProbe where
  isRunning : Bool := false
  thread : Thread := .unstarted
  creations : Nat := 0
deriving DecidableEq

def ExtendProbe.pthreadCreate (probe : ExtendProbe) : ExtendProbe :=
  { probe with thread := .live, creations := probe.creations + 1 }

/-- A probe after the loop in `DaemonRun`. -/
def ProbeConfig.started (config : ProbeConfig) : ExtendProbe :=
  if config.needStart then { ExtendProbe.pthreadCreate {} with isRunning := true } else {}

def esrch : Int32 := 3

/-- `pthread_kill(tid, 0)` -/
def ExtendProbe.pthreadKill (probe : ExtendProbe) : Int32 := if probe.thread = .ended then esrch else 0

/-- The loop of `DaemonKeeplive`, and the probe whose thread it joins, if any:
what follows the join is the end of the loop. -/
def keepliveLoop : List ExtendProbe → List ExtendProbe × Option Nat
  | [] => ([], none)
  | probe :: rest =>
      if probe.isRunning = false then
        let (probes, joined) := keepliveLoop rest
        (probe :: probes, joined.map (· + 1))
      else if probe.pthreadKill = esrch then (probe.pthreadCreate :: rest, some 0)
      else
        let (probes, joined) := keepliveLoop rest
        (probe :: probes, joined.map (· + 1))

/-- The probes, and the one whose thread the handler waits for. -/
structure State where
  probes : List ExtendProbe
  waiting : Option Nat := none
deriving DecidableEq

inductive Event where
  | ended (place : Nat)
  | keeplive
deriving DecidableEq

def State.endThread (state : State) (place : Nat) : State where
  probes := state.probes.modify place fun probe =>
    if probe.thread = .live then { probe with thread := .ended } else probe
  -- the join returns, and with it the handler
  waiting := if state.waiting = some place then none else state.waiting

/-- While its handler waits, the signal is blocked in the thread that handles it.
That another thread takes it then is left out. -/
def State.daemonKeeplive (state : State) : State :=
  if state.waiting.isSome then state
  else
    let (probes, joined) := keepliveLoop state.probes
    { probes, waiting := joined }

def State.step (state : State) : Event → State
  | .ended place => state.endThread place
  | .keeplive => state.daemonKeeplive

/-- The state when the timer is set. -/
def daemonRun (configs : List ProbeConfig) : State where
  probes := configs.map ProbeConfig.started

def run (configs : List ProbeConfig) (events : List Event) : State := events.foldl State.step (daemonRun configs)

structure Revived (before after : State) : Prop where
  finished : after.waiting = none
  alive : ∀ probe ∈ after.probes, probe.isRunning = true → probe.thread = .live
  once : ∀ (place : Nat) (earlier later : ExtendProbe), before.probes[place]? = some earlier → after.probes[place]? = some later →
    earlier.thread = .live → later.creations = earlier.creations
  idle : ∀ (place : Nat) (earlier : ExtendProbe), before.probes[place]? = some earlier → earlier.isRunning = false →
    after.probes[place]? = some earlier

/-- Every invocation of a run revives the probes. -/
def KeepsLive (configs : List ProbeConfig) (events : List Event) : Prop :=
  ∀ earlier later, events = earlier ++ .keeplive :: later → (run configs earlier).waiting = none →
    Revived (run configs earlier) (run configs (earlier ++ [.keeplive]))

/-- The thread of no probe that was started ends. -/
def Calm (configs : List ProbeConfig) (events : List Event) : Prop :=
  ∀ place config, .ended place ∈ events → configs[place]? = some config → config.needStart = false

variable {configs : List ProbeConfig} {earlier later events : List Event} {probes : List ExtendProbe} {state : State}

theorem run_append (configs : List ProbeConfig) (earlier later : List Event) :
    run configs (earlier ++ later) = later.foldl State.step (run configs earlier) := List.foldl_append

/-- Where no running probe is dead nothing is done. -/
theorem keepliveLoop_alive (alive : ∀ probe ∈ probes, probe.isRunning = true → probe.thread ≠ .ended) :
    keepliveLoop probes = (probes, none) := by
  induction probes with
  | nil => rfl
  | cons probe rest ih =>
      rw [List.forall_mem_cons] at alive
      rw [keepliveLoop, ih alive.2]
      split
      case isTrue => rfl
      case isFalse running =>
          have unended := alive.1 (by simpa using running)
          rw [ExtendProbe.pthreadKill, if_neg unended, if_neg (by decide)]
          rfl

theorem keepliveLoop_dead {probe : ExtendProbe} (member : probe ∈ probes) (running : probe.isRunning = true)
    (dead : probe.thread = .ended) : (keepliveLoop probes).2 ≠ none := by
  induction probes with
  | nil => cases member
  | cons first rest ih =>
      rw [keepliveLoop]
      have later (among : probe ∈ rest) : (keepliveLoop rest).2.map (· + 1) ≠ none := by
        rw [ne_eq, Option.map_eq_none_iff]
        exact ih among
      split
      case isTrue idle =>
          rcases List.mem_cons.mp member with rfl | among
          · rw [idle] at running
            cases running
          · exact later among
      case isFalse =>
          split
          case isTrue => exact Option.some_ne_none 0
          case isFalse unended =>
              rcases List.mem_cons.mp member with rfl | among
              · rw [ExtendProbe.pthreadKill, if_pos dead] at unended
                exact absurd rfl unended
              · exact later among

theorem started_alive {probe : ExtendProbe} (member : probe ∈ (daemonRun configs).probes) (running : probe.isRunning = true) :
    probe.thread = .live := by
  obtain ⟨config, _, rfl⟩ := List.mem_map.mp member
  by_cases needed : config.needStart = true
  · rw [ProbeConfig.started, if_pos needed]
    rfl
  · rw [ProbeConfig.started, if_neg needed] at running
    cases running

theorem daemonKeeplive_alive (returned : state.waiting = none)
    (alive : ∀ probe ∈ state.probes, probe.isRunning = true → probe.thread ≠ .ended) : state.daemonKeeplive = state := by
  obtain ⟨probes, waiting⟩ := state
  obtain rfl : waiting = none := returned
  rw [State.daemonKeeplive, if_neg (by simp), keepliveLoop_alive alive]

theorem daemonKeeplive_daemonRun (configs : List ProbeConfig) : (daemonRun configs).daemonKeeplive = daemonRun configs := by
  refine daemonKeeplive_alive rfl fun probe member running ended => ?_
  cases (started_alive member running).symm.trans ended

theorem endThread_daemonRun {place : Nat}
    (idle : ∀ config, configs[place]? = some config → config.needStart = false) :
    (daemonRun configs).endThread place = daemonRun configs := by
  have same : (configs.map ProbeConfig.started).modify place
      (fun probe => if probe.thread = .live then { probe with thread := .ended } else probe) =
        configs.map ProbeConfig.started := by
    refine List.ext_getElem? fun other => ?_
    rw [List.getElem?_modify]
    by_cases here : place = other
    · subst other
      cases found : configs[place]? with
      | none => simp [found]
      | some config => simp [found, ProbeConfig.started, idle config found]
    · simp [here]
  rw [State.endThread, daemonRun, same]
  rfl

theorem run_calm (calm : Calm configs events) : run configs events = daemonRun configs := by
  induction events using List.reverseRecOn with
  | nil => rfl
  | append_singleton events event ih =>
      have before := ih fun place config member => calm place config (List.mem_append_left _ member)
      rw [run_append, before]
      cases event with
      | ended place =>
          refine endThread_daemonRun fun config found => calm place config ?_ found
          exact List.mem_append_right _ (List.mem_singleton_self _)
      | keeplive => exact daemonKeeplive_daemonRun configs

theorem revived_daemonRun (configs : List ProbeConfig) : Revived (daemonRun configs) (daemonRun configs) where
  finished := rfl
  alive := fun _ => started_alive
  once := fun _ earlier later before after _ => by
    cases before.symm.trans after
    rfl
  idle := fun _ _ before _ => before

/-- No invocation is under way, and the probe at the place is dead. -/
structure Dead (place : Nat) (state : State) : Prop where
  returned : state.waiting = none
  dead : ∃ probe, state.probes[place]? = some probe ∧ probe.isRunning = true ∧ probe.thread = .ended

theorem dead_endThread {place : Nat} {config : ProbeConfig} (found : configs[place]? = some config)
    (needed : config.needStart = true) : Dead place ((daemonRun configs).endThread place) := by
  refine ⟨by simp [State.endThread, daemonRun], ⟨true, .ended, 1⟩, ?_, rfl, rfl⟩
  simp [State.endThread, daemonRun, found, ProbeConfig.started, needed, ExtendProbe.pthreadCreate]

theorem Dead.endThread {place : Nat} (dead : Dead place state) (other : Nat) : Dead place (state.endThread other) := by
  obtain ⟨returned, probe, found, running, ended⟩ := dead
  refine ⟨by simp [State.endThread, returned], probe, ?_, running, ended⟩
  simp only [State.endThread, List.getElem?_modify, found]
  split <;> simp [ended]

/-- The threads that end meanwhile do not bring the probe back. -/
theorem Dead.foldl {place : Nat} (dead : Dead place state) (free : .keeplive ∉ events) :
    Dead place (events.foldl State.step state) := by
  induction events generalizing state with
  | nil => exact dead
  | cons event events ih =>
      rw [List.mem_cons, not_or] at free
      cases event with
      | ended other => exact ih (dead.endThread other) free.2
      | keeplive => exact absurd rfl free.1

theorem Dead.waits {place : Nat} (dead : Dead place state) : (state.step .keeplive).waiting ≠ none := by
  obtain ⟨returned, probe, found, running, ended⟩ := dead
  have waits := keepliveLoop_dead (List.mem_of_getElem? found) running ended
  rwa [State.step, State.daemonKeeplive, if_neg (by simp [returned])]

theorem exists_first_end (uncalm : ¬ Calm configs events) :
    ∃ before place config after, events = before ++ .ended place :: after ∧ Calm configs before ∧
      configs[place]? = some config ∧ config.needStart = true := by
  induction events using List.reverseRecOn with
  | nil => exact absurd (fun _ _ member => absurd member List.not_mem_nil) uncalm
  | append_singleton events event ih =>
      by_cases calm : Calm configs events
      · have new : ∃ place config, event = .ended place ∧ configs[place]? = some config ∧ config.needStart = true := by
          simp only [Calm, not_forall, Bool.not_eq_false] at uncalm
          obtain ⟨place, config, member, found, needed⟩ := uncalm
          rcases List.mem_append.mp member with old | last
          · cases needed.symm.trans (calm place config old found)
          · exact ⟨place, config, (List.mem_singleton.mp last).symm, found, needed⟩
        obtain ⟨place, config, rfl, found, needed⟩ := new
        exact ⟨events, place, config, [], rfl, calm, found, needed⟩
      · obtain ⟨before, place, config, after, rfl, first, found, needed⟩ := ih calm
        refine ⟨before, place, config, after ++ [event], ?_, first, found, needed⟩
        rw [List.append_assoc, List.cons_append]

/-- The probe stays dead until the first invocation after that. -/
theorem dead_before_keeplive {before after : List Event} {place : Nat} {config : ProbeConfig} (calm : Calm configs before)
    (found : configs[place]? = some config) (needed : config.needStart = true) (free : .keeplive ∉ after) :
    Dead place (run configs (before ++ .ended place :: after)) := by
  rw [run_append, run_calm calm]
  exact (dead_endThread found needed).foldl free

/-- The probes are kept alive just in the runs in which no thread of a started
probe ends before an invocation. -/
theorem keepsLive_iff (configs : List ProbeConfig) (events : List Event) :
    KeepsLive configs events ↔ ∀ earlier later, events = earlier ++ .keeplive :: later → Calm configs earlier := by
  constructor
  case mp =>
      intro keepsLive earlier later split
      by_contra uncalm
      obtain ⟨before, place, config, after, rfl, calm, found, needed⟩ := exists_first_end uncalm
      -- the first invocation that finds the probe dead
      obtain ⟨between, rest, unfolded, free⟩ :=
        List.eq_append_cons_of_mem (List.mem_append_right after (List.mem_cons_self (a := Event.keeplive) (l := later)))
      have dead := dead_before_keeplive calm found needed free
      have invoked : events = (before ++ .ended place :: between) ++ .keeplive :: rest := by
        rw [split, List.append_assoc, List.cons_append, unfolded, List.append_assoc, List.cons_append]
      have revived := keepsLive _ rest invoked dead.returned
      rw [run_append configs _ [.keeplive]] at revived
      exact dead.waits revived.finished
  case mpr =>
      intro calm earlier later split _
      have start := run_calm (calm earlier later split)
      rw [run_append, start, List.foldl_cons, List.foldl_nil, State.step, daemonKeeplive_daemonRun]
      exact revived_daemonRun configs

/-- Two probes end, the handler waits for the one that it started, and leaves
the other. -/
theorem restart_waits :
    (run [⟨.on, .cnt, none⟩, ⟨.on, .cnt, none⟩] [.ended 0, .ended 1, .keeplive] =
        ⟨[⟨true, .live, 2⟩, ⟨true, .ended, 1⟩], some 0⟩) ∧
      ¬ KeepsLive [⟨.on, .cnt, none⟩, ⟨.on, .cnt, none⟩] [.ended 0, .ended 1, .keeplive] := by
  refine ⟨by decide, fun keepsLive => ?_⟩
  have revived := keepsLive [.ended 0, .ended 1] [] rfl (by decide)
  have finished := revived.finished
  revert finished
  decide

end GalaGopher.Daemon
