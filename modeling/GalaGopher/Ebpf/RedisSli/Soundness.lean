import GalaGopher.Data.Runs
import GalaGopher.Ebpf.RedisSli
import Mathlib.Data.List.Forall2

namespace GalaGopher.Ebpf.RedisSli

open Data Text

namespace Event

/-- The read that makes the entry of a connection. -/
def Creates (id : ConnId) (event : Event) : Prop :=
  ∃ client created sampled, event.hook = .readQueryFromClient client created sampled ∧
    event.connKey client = id.key ∧ id.tsNsec = created

def Reads (key : ConnKey) (tsNsec : UInt64) (event : Event) : Prop :=
  ∃ client created sampled, event.hook = .readQueryFromClient client created sampled ∧
    event.connKey client = key ∧ event.tsNsec = tsNsec

def Processes (key : ConnKey) (name : CharArray maxRedisCmdLen) (event : Event) : Prop :=
  ∃ client, event.hook = .processCommand client ∧ event.connKey client = key ∧
    name = .ofText maxRedisCmdLen (event.memory client).name

def Returns (tsNsec : UInt64) (event : Event) : Prop :=
  (event.hook = .processCommandReturn ∨ event.hook = .writeToClientReturn) ∧ event.tsNsec = tsNsec

def Frees (key : ConnKey) (event : Event) : Prop :=
  ∃ client, event.hook = .freeClient client ∧ event.connKey client = key

end Event

/-- The places in a run that a sample comes from, and its two times. -/
structure Sample where
  createdAt : Nat
  readAt : Nat
  commandAt : Nat
  endAt : Nat
  startTsNsec : UInt64
  endTsNsec : UInt64

/-- The command of a sample, read and processed on its connection. -/
structure Sampled (events : List Event) (id : ConnId) (name : CharArray maxRedisCmdLen)
    (sample : Sample) : Prop where
  created : Happens events sample.createdAt (Event.Creates id)
  read : Happens events sample.readAt (Event.Reads id.key sample.startTsNsec)
  command : Happens events sample.commandAt (Event.Processes id.key name)
  readOnConn : sample.createdAt ≤ sample.readAt
  readBefore : sample.readAt < sample.commandAt

structure Ended (events : List Event) (sample : Sample) : Prop where
  ended : Happens events sample.endAt (Event.Returns sample.endTsNsec)
  endAfter : sample.commandAt < sample.endAt

structure Explains (events : List Event) (sample : Sample) (submitted : CmdEventData) : Prop
    extends Sampled events submitted.connId submitted.name sample, Ended events sample where
  connected : ∀ place, sample.createdAt < place → place < sample.endAt →
    ¬ Happens events place (Event.Frees submitted.connId.key)
  ordered : sample.startTsNsec ≤ sample.endTsNsec
  timeout : submitted.timeoutNsec.toNat = sample.endTsNsec.toNat - sample.startTsNsec.toNat

/-- The clock never goes back. -/
def Clocked (events : List Event) : Prop :=
  events.Pairwise fun earlier later => earlier.tsNsec ≤ later.tsNsec

variable {events : List Event} {event : Event} {id : ConnId} {name : CharArray maxRedisCmdLen}
  {sample : Sample} {samples : List Sample} {submitted : CmdEventData}

theorem Event.Processes.key_eq {first second : ConnKey} {firstName secondName : CharArray maxRedisCmdLen}
    (one : event.Processes first firstName) (two : event.Processes second secondName) : first = second := by
  obtain ⟨client, hook, rfl, _⟩ := one
  obtain ⟨other, same, rfl, _⟩ := two
  rw [hook] at same
  cases same
  rfl

theorem Sampled.concat (sampled : Sampled events id name sample) (event : Event) :
    Sampled (events ++ [event]) id name sample :=
  { sampled with
    created := sampled.created.concat event
    read := sampled.read.concat event
    command := sampled.command.concat event }

theorem Ended.concat (ended : Ended events sample) (event : Event) : Ended (events ++ [event]) sample :=
  { ended with ended := ended.ended.concat event }

theorem Explains.concat (explains : Explains events sample submitted) (event : Event) :
    Explains (events ++ [event]) sample submitted :=
  { explains.toSampled.concat event, explains.toEnded.concat event with
    connected := by
      intro place after before freed
      have inside := Nat.lt_trans before explains.ended.lt_length
      exact explains.connected place after before ((Happens.concat_iff event inside).mp freed)
    ordered := explains.ordered
    timeout := explains.timeout }

theorem Event.quiet (event : Event) (other : ∀ client, event.hook ≠ .freeClient client) (key : ConnKey) :
    ¬ event.Frees key := by
  intro freed
  obtain ⟨client, hook, _⟩ := freed
  exact other client hook

/-- No `freeClient` of the connection since it began. -/
def Open (events : List Event) (key : ConnKey) (createdAt : Nat) : Prop :=
  ∀ place, createdAt < place → ¬ Happens events place (Event.Frees key)

theorem Open.concat {key : ConnKey} {createdAt : Nat} (stays : Open events key createdAt)
    (quiet : ¬ event.Frees key) : Open (events ++ [event]) key createdAt := by
  intro place after freed
  rcases freed.of_concat with earlier | last
  · exact stays place after earlier
  · exact quiet last

/-- The last read that the entry has the time of. -/
structure LastRead (events : List Event) (connData : ConnData) (createdAt readAt : Nat) : Prop where
  created : Happens events createdAt (Event.Creates connData.id)
  read : Happens events readAt (Event.Reads connData.id.key connData.lastReadTsNsec)
  readOnConn : createdAt ≤ readAt
  stays : Open events connData.id.key createdAt

/-- The command in the slot. -/
structure Pending (events : List Event) (samples : List Sample) (connData : ConnData)
    (sample : Sample) : Prop where
  sampled : Sampled events connData.id connData.cmd.name sample
  start : sample.startTsNsec = connData.cmd.startTsNsec
  fresh : sample.commandAt ∉ samples.map Sample.commandAt
  stays : Open events connData.id.key sample.createdAt
  finished : connData.cmd.finished → Ended events sample ∧ sample.endTsNsec = connData.cmd.endTsNsec

structure Tracks (events : List Event) (samples : List Sample) (connData : ConnData) : Prop where
  lastRead : ∃ createdAt readAt, LastRead events connData createdAt readAt
  pending : connData.cmdNums > 0 → ∃ sample, Pending events samples connData sample

variable {connData : ConnData}

theorem LastRead.concat {createdAt readAt : Nat} (lastRead : LastRead events connData createdAt readAt)
    (quiet : ¬ event.Frees connData.id.key) : LastRead (events ++ [event]) connData createdAt readAt :=
  { lastRead with
    created := lastRead.created.concat event
    read := lastRead.read.concat event
    stays := lastRead.stays.concat quiet }

theorem Pending.concat (pending : Pending events samples connData sample)
    (quiet : ¬ event.Frees connData.id.key) : Pending (events ++ [event]) samples connData sample :=
  { pending with
    sampled := pending.sampled.concat event
    stays := pending.stays.concat quiet
    finished := fun finished => ⟨(pending.finished finished).1.concat event, (pending.finished finished).2⟩ }

theorem Tracks.concat (tracks : Tracks events samples connData) (quiet : ¬ event.Frees connData.id.key) :
    Tracks (events ++ [event]) samples connData where
  lastRead := by
    obtain ⟨createdAt, readAt, lastRead⟩ := tracks.lastRead
    exact ⟨createdAt, readAt, lastRead.concat quiet⟩
  pending := by
    intro sampled
    obtain ⟨sample, pending⟩ := tracks.pending sampled
    exact ⟨sample, pending.concat quiet⟩

/-- A command of another connection is another command. -/
theorem Tracks.other (tracks : Tracks events samples connData) {otherId : ConnId}
    (taken : Sampled events otherId name sample) (different : connData.id.key ≠ otherId.key) :
    Tracks events (samples ++ [sample]) connData where
  lastRead := tracks.lastRead
  pending := by
    intro sampled
    obtain ⟨own, pending⟩ := tracks.pending sampled
    refine ⟨own, { pending with fresh := ?_ }⟩
    rw [List.map_append, List.mem_append, not_or]
    refine ⟨pending.fresh, ?_⟩
    intro same
    have place : own.commandAt = sample.commandAt := List.mem_singleton.mp same
    have here := pending.sampled.command
    rw [place] at here
    obtain ⟨event, one, two⟩ := here.both taken.command
    exact different (one.key_eq two)

/-- What a hook leaves alone that neither reads nor starts a command. -/
structure Keeps (connData changed : ConnData) : Prop where
  id : changed.id = connData.id
  lastRead : changed.lastReadTsNsec = connData.lastReadTsNsec
  cmdNums : changed.cmdNums = connData.cmdNums
  name : changed.cmd.name = connData.cmd.name
  start : changed.cmd.startTsNsec = connData.cmd.startTsNsec

theorem LastRead.congr {changed : ConnData} {createdAt readAt : Nat}
    (read : LastRead events connData createdAt readAt) (id : changed.id = connData.id)
    (lastRead : changed.lastReadTsNsec = connData.lastReadTsNsec) :
    LastRead events changed createdAt readAt := by
  refine ⟨?_, ?_, read.readOnConn, ?_⟩
  · rw [id]
    exact read.created
  · rw [id, lastRead]
    exact read.read
  · rw [id]
    exact read.stays

/-- An empty slot. -/
theorem Tracks.emptied (tracks : Tracks events samples connData) {changed : ConnData}
    (id : changed.id = connData.id) (lastRead : changed.lastReadTsNsec = connData.lastReadTsNsec)
    (cmdNums : changed.cmdNums = 0) (others : List Sample) : Tracks events others changed where
  lastRead := by
    obtain ⟨createdAt, readAt, read⟩ := tracks.lastRead
    exact ⟨createdAt, readAt, read.congr id lastRead⟩
  pending := by
    intro sampled
    rw [cmdNums] at sampled
    exact absurd sampled (UInt32.lt_irrefl 0)

/-- The slot may get the times of another end. -/
theorem Tracks.keeps (tracks : Tracks events samples connData) {changed : ConnData}
    (keeps : Keeps connData changed)
    (ends : ∀ sample, Pending events samples connData sample → changed.cmd.finished →
      ∃ endAt, Ended events { sample with endAt, endTsNsec := changed.cmd.endTsNsec }) :
    Tracks events samples changed where
  lastRead := by
    obtain ⟨createdAt, readAt, read⟩ := tracks.lastRead
    exact ⟨createdAt, readAt, read.congr keeps.id keeps.lastRead⟩
  pending := by
    intro sampled
    rw [keeps.cmdNums] at sampled
    obtain ⟨sample, pending⟩ := tracks.pending sampled
    have kept : ∀ endAt, (changed.cmd.finished →
        Ended events { sample with endAt, endTsNsec := changed.cmd.endTsNsec }) →
        Pending events samples changed { sample with endAt, endTsNsec := changed.cmd.endTsNsec } := by
      intro endAt ended
      refine ⟨?_, ?_, pending.fresh, ?_, fun finished => ⟨ended finished, rfl⟩⟩
      · rw [keeps.id, keeps.name]
        exact { pending.sampled with }
      · rw [keeps.start]
        exact pending.start
      · rw [keeps.id]
        exact pending.stays
    by_cases finished : changed.cmd.finished
    · obtain ⟨endAt, ended⟩ := ends sample pending finished
      exact ⟨_, kept endAt fun _ => ended⟩
    · exact ⟨_, kept 0 fun now => absurd now finished⟩

theorem Tracks.unended (tracks : Tracks events samples connData) {changed : ConnData}
    (keeps : Keeps connData changed) (ended : changed.cmd.endTsNsec = connData.cmd.endTsNsec)
    (finished : changed.cmd.finished = connData.cmd.finished) : Tracks events samples changed := by
  refine tracks.keeps keeps ?_
  intro sample pending now
  rw [finished] at now
  obtain ⟨known, time⟩ := pending.finished now
  refine ⟨sample.endAt, ?_⟩
  rw [ended, ← time]
  exact known

section Hooks

variable {past : List Event}

theorem Tracks.readQuery (tracks : Tracks (past ++ [event]) samples connData)
    (reads : event.Reads connData.id.key event.tsNsec) :
    Tracks (past ++ [event]) samples (connData.readQueryFromClient event.tsNsec) := by
  unfold ConnData.readQueryFromClient
  split
  case isTrue => exact tracks
  case isFalse idle =>
      obtain ⟨createdAt, readAt, read⟩ := tracks.lastRead
      refine ⟨⟨createdAt, past.length, read.created, Happens.concat_length past reads, ?_, read.stays⟩,
        fun sampled => absurd sampled idle⟩
      have inside := read.created.lt_length
      rw [List.length_append, List.length_singleton] at inside
      omega

/-- The entry of a new connection, after the read that makes it. -/
theorem Tracks.created {client : ClientPtr} {created sampled : UInt64}
    (hook : event.hook = .readQueryFromClient client created sampled)
    (fresh : connData.id.key = event.connKey client ∧ connData.id.tsNsec = created ∧ connData.cmdNums = 0) :
    Tracks (past ++ [event]) samples (connData.readQueryFromClient event.tsNsec) := by
  obtain ⟨key, tsNsec, cmdNums⟩ := fresh
  have idle : ¬ connData.cmdNums > 0 := by
    rw [cmdNums]
    exact UInt32.lt_irrefl 0
  rw [ConnData.readQueryFromClient, if_neg idle]
  refine ⟨⟨past.length, past.length, ?_, ?_, Nat.le_refl _, ?_⟩, fun sampled => absurd sampled idle⟩
  · exact Happens.concat_length past ⟨client, created, sampled, hook, key.symm, tsNsec⟩
  · exact Happens.concat_length past ⟨client, created, sampled, hook, key.symm, rfl⟩
  · intro place after freed
    have inside := freed.lt_length
    rw [List.length_append, List.length_singleton] at inside
    omega

theorem Tracks.processCommand (tracks : Tracks past samples connData) {client : ClientPtr}
    (hook : event.hook = .processCommand client) (key : event.connKey client = connData.id.key)
    (fresh : past.length ∉ samples.map Sample.commandAt) (quiet : ¬ event.Frees connData.id.key) :
    Tracks (past ++ [event]) samples (connData.processCommand (event.memory client)) := by
  obtain ⟨createdAt, readAt, read⟩ := tracks.lastRead
  have later := read.concat quiet
  refine ⟨⟨createdAt, readAt, later.congr rfl rfl⟩, fun _ => ?_⟩
  have processes : event.Processes connData.id.key (.ofText maxRedisCmdLen (event.memory client).name) :=
    ⟨client, hook, key, rfl⟩
  let sample : Sample :=
    { createdAt, readAt, commandAt := past.length, endAt := 0, startTsNsec := connData.lastReadTsNsec,
      endTsNsec := 0 }
  have sampled : Sampled (past ++ [event]) connData.id (.ofText maxRedisCmdLen (event.memory client).name) sample :=
    ⟨later.created, later.read, Happens.concat_length past processes, read.readOnConn, read.read.lt_length⟩
  exact ⟨sample, sampled, rfl, fresh, later.stays, nofun⟩

theorem Event.Processes.not_returns {key : ConnKey} {tsNsec : UInt64} (processes : event.Processes key name) :
    ¬ event.Returns tsNsec := by
  intro returns
  obtain ⟨client, hook, _⟩ := processes
  rcases returns.1 with command | write
  · rw [command] at hook
    cases hook
  · rw [write] at hook
    cases hook

/-- A return gives the command in the slot its end. -/
theorem Tracks.ended (tracks : Tracks (past ++ [event]) samples connData)
    (returns : event.Returns event.tsNsec) {changed : ConnData} (keeps : Keeps connData changed)
    (ended : changed.cmd.endTsNsec = event.tsNsec) : Tracks (past ++ [event]) samples changed := by
  refine tracks.keeps keeps ?_
  intro sample pending _
  rw [ended]
  refine ⟨past.length, Happens.concat_length past returns, ?_⟩
  rcases pending.sampled.command.of_concat with earlier | last
  · exact earlier.lt_length
  · exact absurd returns last.not_returns

theorem Tracks.processCommandReturn (tracks : Tracks (past ++ [event]) samples connData)
    (returns : event.Returns event.tsNsec) (client : Client) :
    Tracks (past ++ [event]) samples (connData.processCommandReturn event.tsNsec client) := by
  unfold ConnData.processCommandReturn
  split
  case isTrue => exact tracks.unended ⟨rfl, rfl, rfl, rfl, rfl⟩ rfl rfl
  case isFalse =>
      split
      case isTrue => exact tracks.unended ⟨rfl, rfl, rfl, rfl, rfl⟩ rfl rfl
      case isFalse => exact tracks.ended returns ⟨rfl, rfl, rfl, rfl, rfl⟩ rfl

theorem Tracks.finish (tracks : Tracks (past ++ [event]) samples connData)
    (returns : event.Returns event.tsNsec) :
    Tracks (past ++ [event]) samples (connData.finish event.tsNsec) := by
  unfold ConnData.finish
  split
  case isTrue => exact tracks.ended returns ⟨rfl, rfl, rfl, rfl, rfl⟩ rfl
  case isFalse => exact tracks

end Hooks

/-- `samples` explains what has been sent, in order, and no two of one command. -/
structure Sound (events : List Event) (samples : List Sample) (probe : Redissli) : Prop where
  distinct : (samples.map Sample.commandAt).Nodup
  explained : List.Forall₂ (Explains events) samples probe.connCmdEvtMap
  tracked : ∀ key connData, probe.connMap.lookup key = some connData →
    connData.id.key = key ∧ Tracks events samples connData

namespace Sound

variable {probe after : Redissli} {key : ConnKey}

theorem initial : Sound [] [] {} where
  distinct := .nil
  explained := .nil
  tracked := by
    intro key connData found
    rw [BoundedMap.lookup_empty] at found
    cases found

theorem commandAt_lt (sound : Sound events samples probe) (member : sample ∈ samples) :
    sample.commandAt < events.length := by
  have placed := sound.explained.imp fun _ _ explains => And.intro explains.command.lt_length explains
  exact ((List.forall₂_and_left _ _).mp placed).1 sample member

theorem concat (sound : Sound events samples probe)
    (quiet : ∀ key, event.Frees key → probe.connMap.lookup key = none) :
    Sound (events ++ [event]) samples probe where
  distinct := sound.distinct
  explained := sound.explained.imp fun _ _ explains => explains.concat event
  tracked := by
    intro key connData found
    obtain ⟨id, tracks⟩ := sound.tracked key connData found
    refine ⟨id, tracks.concat ?_⟩
    intro freed
    rw [id] at freed
    rw [quiet key freed] at found
    cases found

/-- A change to the entry of one connection. -/
theorem replace (sound : Sound events samples probe) (key : ConnKey)
    (sent : after.connCmdEvtMap = probe.connCmdEvtMap)
    (others : ∀ other, other ≠ key → after.connMap.lookup other = probe.connMap.lookup other)
    (tracked : ∀ connData, after.connMap.lookup key = some connData →
      connData.id.key = key ∧ Tracks events samples connData) : Sound events samples after where
  distinct := sound.distinct
  explained := by
    rw [sent]
    exact sound.explained
  tracked := by
    intro other connData found
    by_cases same : other = key
    · subst other
      exact tracked connData found
    · rw [others other same] at found
      exact sound.tracked other connData found

theorem modifyConn (sound : Sound events samples probe) (key : ConnKey) (change : ConnData → ConnData)
    (tracked : ∀ connData, probe.connMap.lookup key = some connData → connData.id.key = key →
      Tracks events samples connData → (change connData).id = connData.id ∧
        Tracks events samples (change connData)) :
    Sound events samples (probe.modifyConn key change) := by
  refine sound.replace key rfl ?_ ?_
  · intro other different
    exact BoundedMap.lookup_modify_of_ne different change
  · intro connData found
    rw [Redissli.modifyConn, BoundedMap.lookup_modify_self] at found
    obtain ⟨before, present, rfl⟩ := Option.map_eq_some_iff.mp found
    obtain ⟨id, tracks⟩ := sound.tracked key before present
    obtain ⟨kept, changed⟩ := tracked before present id tracks
    rw [kept]
    exact ⟨id, changed⟩

/-- The command in a slot is sent and its slot emptied. -/
theorem submit (sound : Sound events samples probe) (clocked : Clocked events)
    (found : probe.connMap.lookup key = some connData) (sampled : connData.cmdNums > 0)
    (finished : connData.cmd.finished)
    (sent : after.connCmdEvtMap = probe.connCmdEvtMap ++ [submitConnCmdEvent connData])
    (others : ∀ other, other ≠ key → after.connMap.lookup other = probe.connMap.lookup other)
    (emptied : ∀ changed, after.connMap.lookup key = some changed → changed.id = connData.id ∧
      changed.lastReadTsNsec = connData.lastReadTsNsec ∧ changed.cmdNums = 0) :
    ∃ sample, Sound events (samples ++ [sample]) after := by
  obtain ⟨id, tracks⟩ := sound.tracked key connData found
  obtain ⟨sample, pending⟩ := tracks.pending sampled
  obtain ⟨ended, endTsNsec⟩ := pending.finished finished
  refine ⟨sample, ?_, ?_, ?_⟩
  · rw [List.map_append, List.map_singleton, List.nodup_append]
    refine ⟨sound.distinct, List.nodup_singleton _, ?_⟩
    intro earlier member last lastMember same
    rw [List.mem_singleton] at lastMember
    subst same lastMember
    exact pending.fresh member
  · rw [sent]
    have ordered : sample.startTsNsec ≤ sample.endTsNsec := by
      obtain ⟨first, second, reads, returns, le⟩ := pending.sampled.read.related clocked
        (Nat.lt_trans pending.sampled.readBefore ended.endAfter) ended.ended
      obtain ⟨_, _, _, _, _, start⟩ := reads
      rw [← start, ← returns.2]
      exact le
    have timeout : (submitConnCmdEvent connData).timeoutNsec.toNat =
        sample.endTsNsec.toNat - sample.startTsNsec.toNat := by
      rw [submitConnCmdEvent, ← endTsNsec, ← pending.start]
      exact UInt64.toNat_sub_of_le _ _ ordered
    refine List.rel_append sound.explained (.cons ?_ .nil)
    exact
      { pending.sampled, ended with
        connected := fun place after _ => pending.stays place after
        ordered, timeout }
  · intro other changed present
    by_cases same : other = key
    · subst other
      obtain ⟨sameId, lastRead, cmdNums⟩ := emptied changed present
      rw [sameId]
      exact ⟨id, tracks.emptied sameId lastRead cmdNums _⟩
    · rw [others other same] at present
      obtain ⟨otherId, otherTracks⟩ := sound.tracked other changed present
      refine ⟨otherId, otherTracks.other pending.sampled ?_⟩
      rw [otherId, id]
      exact same

/-- Nothing is sent where the entry of one connection changes. -/
theorem unsent (stored : Sound events samples probe) (sent : after.connCmdEvtMap = probe.connCmdEvtMap ++ [])
    (others : ∀ other, other ≠ key → after.connMap.lookup other = probe.connMap.lookup other)
    (tracked : ∀ connData, after.connMap.lookup key = some connData →
      connData.id.key = key ∧ Tracks events samples connData) :
    ∃ more, Sound events (samples ++ more) after := by
  refine ⟨[], ?_⟩
  rw [List.append_nil] at sent ⊢
  exact stored.replace _ sent others tracked

/-- The end of a write, once the command in the slot has its end. -/
theorem sampleConn (stored : Sound events samples probe) (clocked : Clocked events) {tsNsec period : UInt64}
    (found : probe.connMap.lookup key = some connData) (sampled : connData.cmdNums > 0)
    (sent : after.connCmdEvtMap = probe.connCmdEvtMap ++ (connData.sample tsNsec period).2.toList)
    (others : ∀ other, other ≠ key → after.connMap.lookup other = probe.connMap.lookup other)
    (own : after.connMap.lookup key = some (connData.sample tsNsec period).1) :
    ∃ more, Sound events (samples ++ more) after := by
  obtain ⟨id, tracks⟩ := stored.tracked key connData found
  unfold ConnData.sample at sent own
  split at own
  case isFalse same =>
      rw [if_neg same] at sent
      refine stored.unsent sent others ?_
      intro changed present
      cases own.symm.trans present
      exact ⟨id, tracks⟩
  case isTrue elapsed =>
      rw [if_pos elapsed] at sent
      cases finished : connData.cmd.finished with
      | true =>
          rw [finished] at sent
          obtain ⟨taken, sound⟩ := stored.submit clocked found sampled finished sent others (by
            intro changed present
            cases own.symm.trans present
            exact ⟨rfl, rfl, rfl⟩)
          exact ⟨[taken], sound⟩
      | false =>
          rw [finished] at sent
          refine stored.unsent sent others ?_
          intro changed present
          cases own.symm.trans present
          have emptied : Tracks events samples { connData with lastSmpTsNsec := tsNsec, cmdNums := 0 } := by
            refine tracks.emptied ?_ ?_ ?_ samples <;> rfl
          exact ⟨id, emptied⟩

section Hooks

variable {past : List Event} (sound : Sound past samples probe)
include sound

theorem fresh : past.length ∉ samples.map Sample.commandAt := by
  intro member
  obtain ⟨sample, inside, place⟩ := List.mem_map.mp member
  have earlier := sound.commandAt_lt inside
  omega

theorem readQueryFromClient {client : ClientPtr} {created sampled : UInt64}
    (hook : event.hook = .readQueryFromClient client created sampled) :
    Sound (past ++ [event]) samples (probe.readQueryFromClient event client created sampled) := by
  have quiet := event.quiet fun other => by rw [hook]; exact nofun
  have later := sound.concat fun key freed => absurd freed (quiet key)
  have reads : event.Reads (event.connKey client) event.tsNsec := ⟨client, created, sampled, hook, rfl, rfl⟩
  have known : Sound (past ++ [event]) samples
      (probe.modifyConn (event.connKey client) fun connData => connData.readQueryFromClient event.tsNsec) := by
    refine later.modifyConn _ _ ?_
    intro connData _ id tracks
    rw [← id] at reads
    exact ⟨connData.readQueryFromClient_id event.tsNsec, tracks.readQuery reads⟩
  simp only [Redissli.readQueryFromClient]
  cases present : probe.connMap.lookup (event.connKey client) with
  | some connData => exact known
  | none =>
      simp only [Redissli.createConnFromClient]
      cases updated : probe.connMap.update (event.connKey client)
          { id := { tgid := (event.connKey client).tgid, fd := (event.connKey client).fd, tsNsec := created }
            lastSmpTsNsec := sampled } with
      | none => exact known
      | some made =>
          refine later.replace (event.connKey client) rfl ?_ ?_
          · intro other different
            simp only [Redissli.modifyConn, Option.getD_some, BoundedMap.lookup_modify, if_neg different,
              BoundedMap.lookup_update updated]
          · intro connData found
            simp only [Redissli.modifyConn, Option.getD_some, BoundedMap.lookup_modify, if_true,
              BoundedMap.lookup_update updated, Option.map_some, Option.some.injEq] at found
            subst found
            exact ⟨rfl, Tracks.created hook ⟨rfl, rfl, rfl⟩⟩

theorem processCommand {client : ClientPtr} (hook : event.hook = .processCommand client) :
    Sound (past ++ [event]) samples (probe.processCommand event client) := by
  have quiet := event.quiet fun other => by rw [hook]; exact nofun
  have later := sound.concat fun key freed => absurd freed (quiet key)
  simp only [Redissli.processCommand]
  cases present : probe.connMap.lookup (event.connKey client) with
  | none => exact later
  | some connData =>
      simp only
      split
      case isTrue => exact later
      case isFalse =>
          refine ⟨later.distinct, later.explained, ?_⟩
          refine (later.modifyConn (event.connKey client)
            (fun connData => connData.processCommand (event.memory client)) ?_).tracked
          intro connData found id _
          obtain ⟨_, tracks⟩ := sound.tracked _ connData found
          exact ⟨rfl, tracks.processCommand hook id.symm sound.fresh (quiet _)⟩

theorem probeGetParms {popped : Redissli} {prog : Prog} {client : ClientPtr}
    (pops : probe.probeGetParms event prog = some (popped, client)) :
    Sound past samples popped ∧ popped.connMap = probe.connMap := by
  obtain ⟨_, _, same⟩ := Option.map_eq_some_iff.mp pops
  cases same
  exact ⟨⟨sound.distinct, sound.explained, sound.tracked⟩, rfl⟩

theorem processCommandReturn (hook : event.hook = .processCommandReturn) :
    Sound (past ++ [event]) samples (probe.processCommandReturn event) := by
  have quiet := event.quiet fun other => by rw [hook]; exact nofun
  unfold Redissli.processCommandReturn
  cases pops : probe.probeGetParms event .processCommand with
  | none => exact sound.concat fun key freed => absurd freed (quiet key)
  | some found =>
      obtain ⟨popped, client⟩ := found
      have later := (sound.probeGetParms pops).1.concat fun key freed => absurd freed (quiet key)
      refine later.modifyConn _ _ ?_
      intro connData _ _ tracks
      exact ⟨connData.processCommandReturn_id event.tsNsec _, tracks.processCommandReturn ⟨.inl hook, rfl⟩ _⟩

theorem writeToClient {client : ClientPtr} (hook : event.hook = .writeToClient client) :
    Sound (past ++ [event]) samples (probe.writeToClient event client) := by
  have quiet := event.quiet fun other => by rw [hook]; exact nofun
  have later := sound.concat fun key freed => absurd freed (quiet key)
  simp only [Redissli.writeToClient]
  cases present : probe.connMap.lookup (event.connKey client) with
  | none => exact later
  | some connData =>
      refine ⟨later.distinct, later.explained, ?_⟩
      refine (later.modifyConn (event.connKey client)
        (fun connData => connData.writeToClient (event.memory client)) ?_).tracked
      intro connData _ _ tracks
      exact ⟨rfl, tracks.unended ⟨rfl, rfl, rfl, rfl, rfl⟩ rfl rfl⟩

theorem writeToClientReturn (hook : event.hook = .writeToClientReturn) (clocked : Clocked (past ++ [event])) :
    ∃ more, Sound (past ++ [event]) (samples ++ more) (probe.writeToClientReturn event) := by
  have quiet := event.quiet fun other => by rw [hook]; exact nofun
  have returns : event.Returns event.tsNsec := ⟨.inr hook, rfl⟩
  have unchanged : ∀ {same}, Sound past samples same → ∃ more, Sound (past ++ [event]) (samples ++ more) same := by
    intro same before
    refine ⟨[], ?_⟩
    rw [List.append_nil]
    exact before.concat fun key freed => absurd freed (quiet key)
  unfold Redissli.writeToClientReturn
  cases pops : probe.probeGetParms event .writeToClient with
  | none => exact unchanged sound
  | some found =>
      obtain ⟨popped, client⟩ := found
      have before := (sound.probeGetParms pops).1
      have later := before.concat fun key freed => absurd freed (quiet key)
      simp only
      cases present : popped.connMap.lookup (event.connKey client) with
      | none => exact unchanged before
      | some connData =>
          obtain ⟨id, tracks⟩ := later.tracked _ connData present
          have taken : Tracks (past ++ [event]) samples (connData.taken (event.memory client)) :=
            tracks.unended ⟨rfl, rfl, rfl, rfl, rfl⟩ rfl rfl
          have others : ∀ changed other, other ≠ event.connKey client →
              (popped.connMap.modify (event.connKey client) fun _ => changed).lookup other =
                popped.connMap.lookup other :=
            fun _ _ different => BoundedMap.lookup_modify_of_ne different _
          have own : ∀ changed, (popped.connMap.modify (event.connKey client) fun _ => changed).lookup
              (event.connKey client) = some changed := by
            intro changed
            rw [BoundedMap.lookup_modify_self, present, Option.map_some]
          simp only [ConnData.writeToClientReturn]
          by_cases idle : (connData.taken (event.memory client)).cmdNums = 0
          · rw [if_pos idle]
            refine later.unsent rfl (others _) ?_
            intro changed there
            cases (own _).symm.trans there
            exact ⟨id, taken⟩
          · rw [if_neg idle]
            have stored : Sound (past ++ [event]) samples (popped.modifyConn (event.connKey client) fun _ =>
                (connData.taken (event.memory client)).finish event.tsNsec) := by
              refine later.replace (event.connKey client) rfl (others _) ?_
              intro changed there
              cases (own _).symm.trans there
              rw [ConnData.finish_id]
              exact ⟨id, taken.finish returns⟩
            refine stored.sampleConn clocked (own _) ?_ rfl ?_ (own _)
            · rw [ConnData.finish_cmdNums]
              exact UInt32.pos_iff_ne_zero.mpr idle
            · intro other different
              exact (others _ other different).trans (others _ other different).symm

theorem freed {client : ClientPtr} (hook : event.hook = .freeClient client)
    (absent : probe.connMap.lookup (event.connKey client) = none) : Sound (past ++ [event]) samples probe := by
  refine sound.concat ?_
  intro key freed
  obtain ⟨other, same, rfl⟩ := freed
  rw [hook] at same
  cases same
  exact absent

theorem freeClient {client : ClientPtr} (hook : event.hook = .freeClient client) (clocked : Clocked past) :
    ∃ more, Sound (past ++ [event]) (samples ++ more) (probe.freeClient event client) := by
  simp only [Redissli.freeClient]
  cases present : probe.connMap.lookup (event.connKey client) with
  | none =>
      refine ⟨[], ?_⟩
      rw [List.append_nil]
      exact sound.freed hook present
  | some connData =>
      have deleted := probe.connMap.lookup_delete_self (event.connKey client)
      have others : ∀ other, other ≠ event.connKey client →
          (probe.connMap.delete (event.connKey client)).lookup other = probe.connMap.lookup other :=
        fun _ different => BoundedMap.lookup_delete_of_ne different
      let gone (submitted : Option CmdEventData) : Redissli :=
        { probe.submit submitted with connMap := probe.connMap.delete (event.connKey client) }
      simp only
      split
      case isTrue complete =>
          have sent : ∃ sample, Sound past (samples ++ [sample]) (gone (some (submitConnCmdEvent connData))) := by
            refine sound.submit clocked present complete.1 complete.2 rfl others ?_
            intro changed there
            cases deleted.symm.trans there
          obtain ⟨taken, submitted⟩ := sent
          exact ⟨[taken], submitted.freed hook deleted⟩
      case isFalse =>
          have unsent : ∃ more, Sound past (samples ++ more) (gone none) := by
            refine sound.unsent rfl others ?_
            intro changed there
            cases deleted.symm.trans there
          obtain ⟨more, kept⟩ := unsent
          exact ⟨more, kept.freed hook deleted⟩

theorem step (clocked : Clocked (past ++ [event])) :
    ∃ more, Sound (past ++ [event]) (samples ++ more) (probe.step event) := by
  have unsent : ∀ {after}, Sound (past ++ [event]) samples after →
      ∃ more, Sound (past ++ [event]) (samples ++ more) after := by
    intro after sound
    refine ⟨[], ?_⟩
    rw [List.append_nil]
    exact sound
  unfold Redissli.step
  split
  case h_1 client created sampled hook => exact unsent (sound.readQueryFromClient hook)
  case h_2 client hook => exact unsent (sound.processCommand hook)
  case h_3 hook => exact unsent (sound.processCommandReturn hook)
  case h_4 client hook => exact unsent (sound.writeToClient hook)
  case h_5 hook => exact sound.writeToClientReturn hook clocked
  case h_6 client hook => exact sound.freeClient hook (List.pairwise_append.mp clocked).1

end Hooks

end Sound

theorem run_sound (clocked : Clocked events) : ∃ samples, Sound events samples (Redissli.run events) := by
  refine (Runs.foldl Redissli.step {} events).history
    (fun past probe => Clocked past → ∃ samples, Sound past samples probe) ?_ ?_ clocked
  · intro _
    exact ⟨[], .initial⟩
  · rintro past probe event _ rfl ih clocked
    obtain ⟨samples, sound⟩ := ih (List.pairwise_append.mp clocked).1
    obtain ⟨more, after⟩ := sound.step clocked
    exact ⟨samples ++ more, after⟩

theorem submitted_explained (clocked : Clocked events) :
    ∃ samples : List Sample, (samples.map Sample.commandAt).Nodup ∧
      List.Forall₂ (Explains events) samples (Redissli.run events).connCmdEvtMap := by
  obtain ⟨samples, sound⟩ := run_sound clocked
  exact ⟨samples, sound.distinct, sound.explained⟩

/-- A client whose `get` is read at 10, processed at 20 and answered at once;
it leaves at 40. -/
def getEvents : List Event :=
  let memory : ClientPtr → Client := fun _ => { fd := 7, bufpos := 0, replyBytes := 0, name := ascii "get" }
  let hooked (tsNsec : UInt64) (hook : Hook) : Event :=
    { tgid := 1, ctxId := 1, tsNsec, memory, period := none, hook }
  [hooked 10 (.readQueryFromClient 5 11 12), hooked 20 (.processCommand 5), hooked 30 .processCommandReturn,
    hooked 40 (.freeClient 5)]

theorem submitted_explained_get : ∃ samples : List Sample, (samples.map Sample.commandAt).Nodup ∧
    List.Forall₂ (Explains getEvents) samples
      [{ connId := { tgid := 1, fd := 7, tsNsec := 11 }, name := .ofText maxRedisCmdLen (ascii "get"),
         timeoutNsec := 20 }] :=
  @submitted_explained getEvents (by unfold Clocked; decide)

end GalaGopher.Ebpf.RedisSli
