import GalaGopher.Data.BoundedMap
import GalaGopher.Data.Runs
import Mathlib.Logic.Function.Basic

namespace GalaGopher.Ebpf

open Data

abbrev RequestPtr := UInt64

abbrev Pid := Int32

def taskRequestMax : Nat := 100

def shareMapTaskMaxEntries : Nat := 10 * 1024

/-- The fields of `struct thread_io_data` that the hooks write. -/
structure ThreadIoData where
  major : Int32 := 0
  minor : Int32 := 0
  taskIoWaitTimeUs : UInt64 := 0
  taskIoCount : UInt64 := 0
  taskIoTimeUs : UInt64 := 0
  taskHangCount : UInt32 := 0

/-- What a hook finds at the pointer of a request. -/
structure Request where
  ptr : RequestPtr
  cmdFlags : UInt32 := 0
  major : Int32 := 0
  firstMinor : Int32 := 0

structure ThreadIo where
  taskRequestStart : BoundedMap RequestPtr UInt64 taskRequestMax
  taskMap : BoundedMap Pid ThreadIoData shareMapTaskMaxEntries

namespace ThreadIo

/-- Both branches on the direction of the request are empty. -/
def updateTaskCountEntry (request : Request) (deltaUs : UInt64) (data : ThreadIoData) : ThreadIoData :=
  { data with
    taskIoCount := data.taskIoCount + 1
    taskIoTimeUs := data.taskIoTimeUs + deltaUs
    major := request.major
    minor := request.firstMinor }

variable (probe : ThreadIo)

def isTaskExist (pid : Pid) : Bool := (probe.taskMap.lookup pid).isSome

def blkMqStartRequest (pid : Pid) (request : RequestPtr) (ts : UInt64) : ThreadIo :=
  if !probe.isTaskExist pid then
    probe
  else
    match probe.taskRequestStart.update request ts with
    | some taskRequestStart => { probe with taskRequestStart }
    | none => probe

def blkAccountIoCompletion (pid : Pid) (request : Request) (ktime : UInt64) : ThreadIo :=
  match probe.taskRequestStart.lookup request.ptr with
  | none => probe
  | some ts =>
      let deltaUs := (ktime - ts) / 1000
      match probe.taskMap.lookup pid with
      | none => probe
      | some _ => { probe with taskMap := probe.taskMap.modify pid (updateTaskCountEntry request deltaUs) }

def schedStatIowait (pid : Pid) (delta : UInt64) : ThreadIo :=
  { probe with
    taskMap := probe.taskMap.modify pid fun data => { data with taskIoWaitTimeUs := data.taskIoWaitTimeUs + delta } }

def schedProcessHang (pid : Pid) : ThreadIo :=
  { probe with taskMap := probe.taskMap.modify pid fun data => { data with taskHangCount := data.taskHangCount + 1 } }

end ThreadIo

/-- A hook run by the current task, or a change another probe makes to the
shared tasks. -/
inductive ThreadIoEvent where
  | blkMqStartRequest (pid : Pid) (request : RequestPtr) (now : UInt64)
  | blkAccountIoCompletion (pid : Pid) (request : Request) (now : UInt64)
  | schedStatIowait (pid : Pid) (delta : UInt64)
  | schedProcessHang (pid : Pid)
  | setTasks (taskMap : BoundedMap Pid ThreadIoData shareMapTaskMaxEntries)

def ThreadIo.step (probe : ThreadIo) : ThreadIoEvent → ThreadIo
  | .blkMqStartRequest pid request now => probe.blkMqStartRequest pid request now
  | .blkAccountIoCompletion pid request now => probe.blkAccountIoCompletion pid request now
  | .schedStatIowait pid delta => probe.schedStatIowait pid delta
  | .schedProcessHang pid => probe.schedProcessHang pid
  | .setTasks taskMap => { probe with taskMap }

namespace ThreadIo

/-- A request in flight: the task that started it, and when. -/
structure Started where
  pid : Pid
  ts : UInt64

/-- A call of `update_task_count_entry`: the request it is for, the task it
adds to, and what it adds. -/
structure Sample where
  started : Option Started
  completedAt : UInt64
  pid : Pid
  deltaUs : UInt64

/-- The time of its own request, added to the task that started it. -/
def Sample.Own (sample : Sample) : Prop :=
  ∃ started, sample.started = some started ∧ sample.pid = started.pid ∧
    sample.deltaUs.toNat = (sample.completedAt.toNat - started.ts.toNat) / 1000

/-- The task and the time that the completion of a request adds to it. -/
def added (probe : ThreadIo) (pid : Pid) (request : RequestPtr) (ktime : UInt64) : Option (Pid × UInt64) :=
  match probe.taskRequestStart.lookup request with
  | none => none
  | some ts => if probe.isTaskExist pid then some (pid, (ktime - ts) / 1000) else none

theorem blkAccountIoCompletion_eq (probe : ThreadIo) (pid : Pid) (request : Request) (ktime : UInt64) :
    probe.blkAccountIoCompletion pid request ktime =
      match probe.added pid request.ptr ktime with
      | none => probe
      | some (task, deltaUs) =>
          { probe with taskMap := probe.taskMap.modify task (updateTaskCountEntry request deltaUs) } := by
  cases held : probe.taskRequestStart.lookup request.ptr with
  | none => simp [blkAccountIoCompletion, added, held]
  | some ts =>
      cases task : probe.taskMap.lookup pid with
      | none => simp [blkAccountIoCompletion, added, held, isTaskExist, task]
      | some data => simp [blkAccountIoCompletion, added, held, isTaskExist, task]

/-- The probe beside what the block layer has in flight. -/
structure Traced where
  probe : ThreadIo
  inFlight : RequestPtr → Option Started
  clock : UInt64
  samples : List Sample

namespace Traced

/-- Requests may be in flight from before the probe runs. -/
def start (taskMap : BoundedMap Pid ThreadIoData shareMapTaskMaxEntries)
    (inFlight : RequestPtr → Option Started) (clock : UInt64) : Traced :=
  { probe := { taskRequestStart := .empty, taskMap }, inFlight, clock, samples := [] }

def step (traced : Traced) (event : ThreadIoEvent) : Traced :=
  let probe := traced.probe.step event
  match event with
  | .blkMqStartRequest pid request now =>
      { traced with
        probe
        inFlight := Function.update traced.inFlight request (some { pid, ts := now })
        clock := now }
  | .blkAccountIoCompletion pid request now =>
      let sampled := (traced.probe.added pid request.ptr now).map fun added =>
        { started := traced.inFlight request.ptr, completedAt := now, pid := added.1, deltaUs := added.2 : Sample }
      { probe
        inFlight := Function.update traced.inFlight request.ptr none
        clock := now
        samples := traced.samples ++ sampled.toList }
  | .schedStatIowait .. | .schedProcessHang .. | .setTasks .. => { traced with probe }

/-- A pointer is of one request at a time, and the clock never goes back. -/
def Possible (traced : Traced) : ThreadIoEvent → Prop
  | .blkMqStartRequest _ request now => traced.inFlight request = none ∧ traced.clock ≤ now
  | .blkAccountIoCompletion _ request now => (traced.inFlight request.ptr).isSome ∧ traced.clock ≤ now
  | .schedStatIowait .. | .schedProcessHang .. | .setTasks .. => True

/-- Every sample is of its own request, and the starts held are of requests in
flight. -/
structure Attributed (traced : Traced) : Prop where
  samples : ∀ sample ∈ traced.samples, sample.Own
  held : ∀ request, (traced.probe.taskRequestStart.lookup request).isSome → (traced.inFlight request).isSome

/-- No request completes whose start was recorded. -/
def Unmeasured (traced : Traced) : ThreadIoEvent → Prop
  | .blkAccountIoCompletion _ request _ => traced.probe.taskRequestStart.lookup request.ptr = none
  | _ => True

variable {traced : Traced} {event : ThreadIoEvent}

theorem start_attributed (taskMap : BoundedMap Pid ThreadIoData shareMapTaskMaxEntries)
    (inFlight : RequestPtr → Option Started) (clock : UInt64) : (start taskMap inFlight clock).Attributed where
  samples sample member := by cases member
  held request held := by cases held

theorem blkMqStartRequest_held {probe : ThreadIo} {pid : Pid} {request other : RequestPtr} {ts : UInt64}
    (held : ((probe.blkMqStartRequest pid request ts).taskRequestStart.lookup other).isSome) :
    other = request ∨ (probe.taskRequestStart.lookup other).isSome := by
  unfold blkMqStartRequest at held
  split at held
  case isTrue => exact .inr held
  case isFalse =>
      split at held
      case h_1 map updated =>
          rw [BoundedMap.lookup_update updated] at held
          split at held
          case isTrue same => exact .inl same
          case isFalse => exact .inr held
      case h_2 => exact .inr held

@[simp] theorem blkAccountIoCompletion_held (probe : ThreadIo) (pid : Pid) (request : Request) (ktime : UInt64) :
    (probe.blkAccountIoCompletion pid request ktime).taskRequestStart = probe.taskRequestStart := by
  rw [blkAccountIoCompletion_eq]
  split <;> rfl

theorem Attributed.step (attributed : traced.Attributed) (unmeasured : traced.Unmeasured event) :
    (traced.step event).Attributed := by
  cases event with
  | blkMqStartRequest pid request now =>
      refine ⟨attributed.samples, fun other held => ?_⟩
      simp only [Traced.step, Function.update_apply]
      split
      case isTrue => rfl
      case isFalse different =>
          rcases blkMqStartRequest_held held with same | held
          · exact absurd same different
          · exact attributed.held other held
  | blkAccountIoCompletion pid request now =>
      have absent : traced.probe.taskRequestStart.lookup request.ptr = none := unmeasured
      have silent : traced.probe.added pid request.ptr now = none := by simp [added, absent]
      refine ⟨?_, fun other held => ?_⟩
      · simpa [Traced.step, silent] using attributed.samples
      · simp only [Traced.step, ThreadIo.step, blkAccountIoCompletion_held] at held ⊢
        have different : other ≠ request.ptr := by
          intro same
          rw [same, absent] at held
          cases held
        rw [Function.update_of_ne different]
        exact attributed.held other held
  | schedStatIowait pid delta => exact ⟨attributed.samples, attributed.held⟩
  | schedProcessHang pid => exact ⟨attributed.samples, attributed.held⟩
  | setTasks taskMap => exact ⟨attributed.samples, attributed.held⟩

/-- The start of a completed request stays. -/
theorem unmeasured_of_attributed (attributed : (traced.step event).Attributed) : traced.Unmeasured event := by
  cases event with
  | blkAccountIoCompletion pid request now =>
      have held := attributed.held request.ptr
      simp only [Traced.step, ThreadIo.step, blkAccountIoCompletion_held, Function.update_self] at held
      have absent : traced.probe.taskRequestStart.lookup request.ptr = none := by simpa using held
      exact absent
  | _ => trivial

/-- The condition is exact: the first measured request is the first wrong
state. -/
theorem samples_attributed (taskMap : BoundedMap Pid ThreadIoData shareMapTaskMaxEntries)
    (inFlight : RequestPtr → Option Started) (clock : UInt64) {events : List ThreadIoEvent} {last : Traced}
    (run : Runs (fun traced event after => traced.Possible event ∧ traced.Unmeasured event ∧ traced.step event = after)
      (start taskMap inFlight clock) events last) :
    last.Attributed ∧ ∀ event, last.Possible event → ((last.step event).Attributed ↔ last.Unmeasured event) := by
  have attributed : last.Attributed := by
    apply run.invariant Attributed (start_attributed taskMap inFlight clock)
    intro traced event after taken attributed
    obtain ⟨_, unmeasured, rfl⟩ := taken
    exact attributed.step unmeasured
  exact ⟨attributed, fun event _ => ⟨unmeasured_of_attributed, attributed.step⟩⟩

/-- The tasks 5 and 9. -/
def twoTasks : BoundedMap Pid ThreadIoData shareMapTaskMaxEntries where
  entries := [(5, {}), (9, {})]
  distinct := by decide
  fits := by decide

/-- Task 5 starts a request that completes while task 9 runs. -/
def elsewhere : List ThreadIoEvent := [.blkMqStartRequest 5 1 1000, .blkAccountIoCompletion 9 { ptr := 1 } 3000]

theorem sample_of_other_task :
    ¬ ∀ (events : List ThreadIoEvent) (last : Traced),
      Runs (fun traced event after => traced.Possible event ∧ traced.step event = after)
        (start twoTasks (fun _ => none) 0) events last → last.Attributed := by
  intro attributed
  have started : (start twoTasks (fun _ => none) 0).Possible (.blkMqStartRequest 5 1 1000) := ⟨rfl, by decide⟩
  have completed : ((start twoTasks (fun _ => none) 0).step (.blkMqStartRequest 5 1 1000)).Possible
      (.blkAccountIoCompletion 9 { ptr := 1 } 3000) := ⟨rfl, by decide⟩
  have last := attributed elsewhere _ (.next (.next .start ⟨started, rfl⟩) ⟨completed, rfl⟩)
  obtain ⟨starter, same, other, _⟩ := last.samples
    { started := some { pid := 5, ts := 1000 }, completedAt := 3000, pid := 9, deltaUs := 2 } List.mem_cons_self
  cases same
  revert other
  decide

theorem samples_attributed_unmeasured :
    ((start twoTasks (fun _ => none) 0).step (.blkMqStartRequest 5 1 1000)).Attributed ∧
      ∀ event, ((start twoTasks (fun _ => none) 0).step (.blkMqStartRequest 5 1 1000)).Possible event →
        ((((start twoTasks (fun _ => none) 0).step (.blkMqStartRequest 5 1 1000)).step event).Attributed ↔
          ((start twoTasks (fun _ => none) 0).step (.blkMqStartRequest 5 1 1000)).Unmeasured event) := by
  have started : (start twoTasks (fun _ => none) 0).Possible (.blkMqStartRequest 5 1 1000) := ⟨rfl, by decide⟩
  exact samples_attributed twoTasks (fun _ => none) 0 (.next .start ⟨started, trivial, rfl⟩)

end Traced

end ThreadIo

end GalaGopher.Ebpf
