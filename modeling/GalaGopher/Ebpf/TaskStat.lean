import GalaGopher.Data.Handles
import GalaGopher.Data.LastWrite
import GalaGopher.Data.Runs
import GalaGopher.Text.Lines
import GalaGopher.Text.Options

namespace GalaGopher.Ebpf.TaskStat

open Data Text

/-! The statistics of tasks, read from `/proc` into one of ten slots that are
handed out by number. -/

def maxNum : Nat := 10
def taskStatMax : Nat := 25
def commandLen : Nat := 256
def lineBufLen : Nat := 512

/-- A number modulo `MAX_NUM`. -/
def slotOf (number : Nat) : Fin maxNum := ⟨number % maxNum, Nat.mod_lt _ (by decide)⟩

/-- The columns of the stat file that are read. -/
inductive TaskStatE where
  | minflt
  | majflt
  | utime
  | stime
  | vsize
  | rss
deriving DecidableEq

instance (holds : TaskStatE → Prop) [DecidablePred holds] : Decidable (∀ field, holds field) :=
  decidable_of_iff (∀ field ∈ [TaskStatE.minflt, .majflt, .utime, .stime, .vsize, .rss], holds field)
    ⟨fun given field => given field (by cases field <;> simp), fun given field _ => given field⟩

def TaskStatE.column : TaskStatE → Fin taskStatMax
  | minflt => ⟨10, by decide⟩
  | majflt => ⟨12, by decide⟩
  | utime => ⟨14, by decide⟩
  | stime => ⟨15, by decide⟩
  | vsize => ⟨23, by decide⟩
  | rss => ⟨24, by decide⟩

structure TaskStatS where
  used : Bool := false
  stat : Fin taskStatMax → Int := fun _ => 0

/-- The static data; the index is always taken modulo `MAX_NUM`. -/
structure State where
  taskStatIndex : Fin maxNum := slotOf 0
  stats : Fin maxNum → TaskStatS := fun _ => {}

/-- The loop of `__get_next_index`, `left` turns before `num` is `MAX_NUM`:
the slot to use, if there is one, and the index it stops at. -/
def nextIndexLoop (stats : Fin maxNum → TaskStatS) : (left : Nat) → Fin maxNum → Option (Fin maxNum) × Fin maxNum
  | 0, index => (none, index)
  | left + 1, index =>
      if (stats index).used = true then nextIndexLoop stats left (following index) else (some index, index)

/-- `none` stands for -1. -/
def getNextIndex (state : State) : Option (Fin maxNum) × State :=
  match nextIndexLoop state.stats maxNum state.taskStatIndex with
  | (none, index) => (none, { state with taskStatIndex := index })
  | (some found, index) =>
      (some found, { taskStatIndex := index
                     stats := Function.update state.stats found { state.stats found with used := true } })

def freeIndex (state : State) (iIndex : UInt32) : State :=
  let index := slotOf iIndex.toNat
  { state with stats := Function.update state.stats index { state.stats index with used := false } }

def procTaskFile (pid : UInt32) : Bytes :=
  (ascii "/proc/" ++ ascii (toString pid.toNat) ++ ascii "/stat").take (commandLen - 1)

/-- `AWK_FIELD2`; `AWK_FIELD` goes on with a newline in quotes. -/
def awkField (field : TaskStatE) : Bytes :=
  let number := ascii (toString field.column.val)
  ascii "\"" ++ number ++ ascii "=\"$" ++ number

def getAwkCommand : Bytes :=
  (ascii " | awk '\x7bprint" ++
    ([TaskStatE.minflt, .majflt, .utime, .stime, .vsize].flatMap fun field => awkField field ++ ascii "\"\\n\"") ++
    awkField .rss ++ ascii "\x7d'").take (commandLen - 1)

def buildCatCommand (statFile : Bytes) : Bytes :=
  (ascii "/usr/bin/cat " ++ statFile ++ ascii " " ++ getAwkCommand).take (commandLen - 1)

/-- The index and the value in a line; `none` is a null pointer for `atoi` or
`atol`. -/
def getLineInfo (line : Bytes) : Option (Nat × Int) :=
  match strtok line 61 with
  | s1 :: s2 :: _ => some ((atoi s1).toUInt32.toNat, strtol s2)
  | _ => none

def storeLine (stat : Fin taskStatMax → Int) (line : Bytes) : Option (Fin taskStatMax → Int) :=
  (getLineInfo (splitNewlineSymbol line)).map fun (statIndex, value) =>
    if bound : statIndex < taskStatMax then Function.update stat ⟨statIndex, bound⟩ value else stat

/-- The files there are, and what a command writes if it can be started. -/
structure World where
  access : Bytes → Bool
  popen : Bytes → Option Bytes

/-- The handle, `none` for -1, and the static data behind. No result at all is
a null pointer in a line. -/
def readTaskStat (state : State) (world : World) (pid : UInt32) : Option (Option (Fin maxNum) × State) :=
  if world.access (procTaskFile pid) = false then some (none, state)
  else
    match world.popen (buildCatCommand (procTaskFile pid)) with
    | none => some (none, state)
    | some output =>
        match getNextIndex state with
        | (none, state) => some (none, state)
        | (some i, state) =>
            ((fgetsStrings lineBufLen output).foldlM storeLine (state.stats i).stat).map fun stat =>
              (some i, { state with stats := Function.update state.stats i { state.stats i with stat } })

def freeTaskStat (state : State) (readHandle : UInt32) : State := freeIndex state readHandle

def getTaskStat (field : TaskStatE) (state : State) (readHandle : UInt32) : Int :=
  if bound : readHandle.toNat < maxNum then (state.stats ⟨readHandle.toNat, bound⟩).stat field.column else 0

def getTaskMinflt : State → UInt32 → Int := getTaskStat .minflt
def getTaskMajflt : State → UInt32 → Int := getTaskStat .majflt
def getTaskUtime : State → UInt32 → Int := getTaskStat .utime
def getTaskStime : State → UInt32 → Int := getTaskStat .stime
def getTaskVsize : State → UInt32 → Int := getTaskStat .vsize
def getTaskRss : State → UInt32 → Int := getTaskStat .rss

def TaskStatE.getter : TaskStatE → State → UInt32 → Int
  | minflt => getTaskMinflt
  | majflt => getTaskMajflt
  | utime => getTaskUtime
  | stime => getTaskStime
  | vsize => getTaskVsize
  | rss => getTaskRss

theorem getter_eq (field : TaskStatE) : field.getter = getTaskStat field := by
  cases field <;> rfl

variable {state next : State} {world : World} {pid : UInt32} {handle : Fin maxNum} {output line : Bytes}
  {lines : List Bytes} {stat : Fin taskStatMax → Int}

def State.used (state : State) (slot : Fin maxNum) : Bool := (state.stats slot).used

theorem nextIndexLoop_fst (stats : Fin maxNum → TaskStatS) (left : Nat) (index : Fin maxNum) :
    (nextIndexLoop stats left index).1 = (around index left).find? fun slot => !(stats slot).used := by
  induction left generalizing index with
  | zero => rfl
  | succ left ih =>
      rw [nextIndexLoop, around, List.find?_cons]
      cases taken : (stats index).used with
      | true => simpa using ih (following index)
      | false => simp

/-- The loop finds the first free slot, and marks it. -/
theorem getNextIndex_fst (state : State) : (getNextIndex state).1 = firstFree state.used state.taskStatIndex := by
  have loop := nextIndexLoop_fst state.stats maxNum state.taskStatIndex
  rw [getNextIndex, firstFree]
  split
  · rename_i found
    rw [found] at loop
    exact loop
  · rename_i found
    rw [found] at loop
    exact loop

theorem getNextIndex_some (found : firstFree state.used state.taskStatIndex = some handle) :
    ∃ next, getNextIndex state = (some handle, next) ∧
      next.stats = Function.update state.stats handle { state.stats handle with used := true } := by
  rw [← getNextIndex_fst] at found
  rw [getNextIndex] at found ⊢
  split at found
  · cases found
  · cases found
    exact ⟨_, rfl, rfl⟩

theorem getNextIndex_none (full : firstFree state.used state.taskStatIndex = none) :
    ∃ next, getNextIndex state = (none, next) ∧ next.stats = state.stats := by
  rw [← getNextIndex_fst] at full
  rw [getNextIndex] at full ⊢
  split at full
  · exact ⟨_, rfl, rfl⟩
  · cases full

/-- What a line stores for a field. -/
def lineValue (field : TaskStatE) (line : Bytes) : Option Int :=
  (getLineInfo (splitNewlineSymbol line)).bind fun (statIndex, value) =>
    if statIndex = field.column.val then some value else none

/-- What the output of a command gives for a field. -/
def readValue (output : Bytes) (field : TaskStatE) : Option Int :=
  lastWrite (lineValue field) (fgetsStrings lineBufLen output)

/-- Every line has two texts with a `=` between them. -/
def Readable (lines : List Bytes) : Prop :=
  ∀ line ∈ lines, 2 ≤ (strtok (splitNewlineSymbol line) 61).length

instance (lines : List Bytes) : Decidable (Readable lines) := inferInstanceAs (Decidable (∀ line ∈ lines, _))

theorem getLineInfo_isSome (line : Bytes) : (getLineInfo line).isSome ↔ 2 ≤ (strtok line 61).length := by
  rw [getLineInfo]
  split
  · rename_i tokens
    simp [tokens]
  · rename_i fewer
    match tokens : strtok line 61 with
    | [] | [_] => simp
    | s1 :: s2 :: rest => exact absurd tokens (fewer s1 s2 rest)

theorem storeLine_some (readable : 2 ≤ (strtok (splitNewlineSymbol line) 61).length) :
    ∃ after, storeLine stat line = some after ∧
      ∀ field : TaskStatE, after field.column = (lineValue field line).getD (stat field.column) := by
  rw [← getLineInfo_isSome] at readable
  obtain ⟨⟨statIndex, value⟩, info⟩ := Option.isSome_iff_exists.mp readable
  simp only [storeLine, lineValue, info, Option.map_some, Option.bind_some, Option.some.injEq, exists_eq_left']
  intro field
  have column := field.column.isLt
  split
  · rename_i bound
    by_cases same : statIndex = field.column.val
    · subst same
      simp
    · rw [if_neg same, Function.update_of_ne (fun equal => same (congrArg Fin.val equal).symm)]
      rfl
  · rw [if_neg (by omega)]
    rfl

theorem storeLines_some (readable : Readable lines) (stat : Fin taskStatMax → Int) :
    ∃ after, lines.foldlM storeLine stat = some after ∧
      ∀ field : TaskStatE, after field.column = (lastWrite (lineValue field) lines).getD (stat field.column) := by
  induction lines generalizing stat with
  | nil => exact ⟨stat, rfl, fun _ => rfl⟩
  | cons line rest ih =>
      obtain ⟨first, others⟩ := List.forall_mem_cons.mp readable
      obtain ⟨middle, stored, here⟩ := @storeLine_some line stat first
      obtain ⟨after, storedAll, there⟩ := ih others middle
      refine ⟨after, ?_, ?_⟩
      · rw [List.foldlM_cons, stored]
        exact storedAll
      · intro field
        rw [there, here, lastWrite_cons, Option.getD_or]

inductive Call where
  | readTaskStat (world : World) (pid : UInt32)
  | freeTaskStat (readHandle : UInt32)

/-- The static data, and for each handle that was returned and not freed since
the output that was read for it. -/
structure Session where
  state : State := {}
  live : Fin maxNum → Option Bytes := fun _ => none

def Session.step (session : Session) : Call → Option Session
  | .readTaskStat world pid =>
      (readTaskStat session.state world pid).map fun (handle, state) =>
        match handle with
        | none => { session with state }
        | some handle =>
            { state
              live := Function.update session.live handle (world.popen (buildCatCommand (procTaskFile pid))) }
  | .freeTaskStat readHandle =>
      some {
        state := freeTaskStat session.state readHandle
        live := if bound : readHandle.toNat < maxNum then Function.update session.live ⟨readHandle.toNat, bound⟩ none
          else session.live }

def Session.after (session : Option Session) (call : Call) : Option Session := session.bind (·.step call)

/-- A handle that is next is not live, there is none exactly when every slot is
in use, and the getters return for a live one what was read for it, or 0. -/
structure Safe (session : Session) : Prop where
  fresh : ∀ handle, (getNextIndex session.state).1 = some handle → session.live handle = none
  full : (getNextIndex session.state).1 = none ↔ ∀ slot, (session.state.stats slot).used = true
  owned : ∀ slot, (session.state.stats slot).used = (session.live slot).isSome
  values : ∀ (handle : Fin maxNum) (output : Bytes), session.live handle = some output →
    ∀ field : TaskStatE, field.getter session.state (UInt32.ofNat handle.val) = (readValue output field).getD 0

/-- A call that leaves the handles of others alone: a number that is freed is
none of another slot in use, and a slot that is read into holds nothing where
the output has nothing. -/
def Harmless : Option Session → Call → Prop
  | none, _ => False
  | some session, .freeTaskStat readHandle =>
      readHandle.toNat < maxNum ∨ session.state.used (slotOf readHandle.toNat) = false
  | some session, .readTaskStat world pid =>
      world.access (procTaskFile pid) = true →
        ∀ output ∈ world.popen (buildCatCommand (procTaskFile pid)),
          ∀ handle ∈ firstFree session.state.used session.state.taskStatIndex,
            Readable (fgetsStrings lineBufLen output) ∧
              ∀ field, (readValue output field).isSome = true ∨ (session.state.stats handle).stat field.column = 0

instance (session : Option Session) (call : Call) : Decidable (Harmless session call) :=
  match session, call with
  | none, _ => inferInstanceAs (Decidable False)
  | some _, .freeTaskStat _ => inferInstanceAs (Decidable (_ ∨ _))
  | some _, .readTaskStat _ _ => inferInstanceAs (Decidable (_ → _))

/-- What is kept: the slots in use are those of the live handles, each with
what was read for it. -/
structure Sound (session : Session) : Prop where
  owned : Owned session.state.used session.live
  values : ∀ handle output, session.live handle = some output →
    ∀ field : TaskStatE, (session.state.stats handle).stat field.column = (readValue output field).getD 0

variable {session : Session} {call : Call}

theorem used_update (state : State) (handle : Fin maxNum) (slot : TaskStatS)
    (stats : next.stats = Function.update state.stats handle slot) :
    next.used = Function.update state.used handle slot.used := by
  funext other
  rw [State.used, stats]
  by_cases same : other = handle
  · rw [same, Function.update_self, Function.update_self]
  · rw [Function.update_of_ne same, Function.update_of_ne same, State.used]

/-- A read hands out nothing and keeps the slots, or it fills the first free
one with what it read. -/
theorem readTaskStat_cases (harmless : Harmless (some session) (.readTaskStat world pid)) :
    (∃ next, readTaskStat session.state world pid = some (none, next) ∧ next.stats = session.state.stats) ∨
      ∃ handle output next stat, firstFree session.state.used session.state.taskStatIndex = some handle ∧
        world.popen (buildCatCommand (procTaskFile pid)) = some output ∧
        readTaskStat session.state world pid = some (some handle, next) ∧
        next.stats = Function.update session.state.stats handle { used := true, stat } ∧
        ∀ field : TaskStatE, stat field.column = (readValue output field).getD 0 := by
  rw [readTaskStat]
  split
  · exact .inl ⟨session.state, rfl, rfl⟩
  · rename_i accessible
    rw [Bool.not_eq_false] at accessible
    split
    · exact .inl ⟨session.state, rfl, rfl⟩
    · rename_i output written
      cases search : firstFree session.state.used session.state.taskStatIndex with
      | none =>
          obtain ⟨next, taken, stats⟩ := getNextIndex_none search
          exact .inl ⟨next, by rw [taken], stats⟩
      | some handle =>
          obtain ⟨readable, blank⟩ := harmless accessible output written handle search
          obtain ⟨next, taken, stats⟩ := getNextIndex_some search
          obtain ⟨stat, stored, columns⟩ := storeLines_some readable (session.state.stats handle).stat
          have kept : (next.stats handle).stat = (session.state.stats handle).stat := by
            rw [stats, Function.update_self]
          refine .inr ⟨handle, output, { next with
            stats := Function.update next.stats handle { next.stats handle with stat } }, stat, rfl, written, ?_, ?_, ?_⟩
          · rw [taken]
            simp only [kept, stored, Option.map_some]
          · rw [stats, Function.update_self, Function.update_idem]
          · intro field
            rw [columns, ← readValue]
            rcases blank field with given | zero
            · obtain ⟨value, last⟩ := Option.isSome_iff_exists.mp given
              rw [last, Option.getD_some, Option.getD_some]
            · rw [zero]

theorem Sound.read (sound : Sound session) (harmless : Harmless (some session) (.readTaskStat world pid)) :
    ∃ after, session.step (.readTaskStat world pid) = some after ∧ Sound after := by
  rcases readTaskStat_cases harmless with
    ⟨next, read, stats⟩ | ⟨handle, output, next, stat, -, written, read, stats, columns⟩
  · refine ⟨{ session with state := next }, by rw [Session.step, read]; rfl, ?_, ?_⟩
    · intro slot
      rw [State.used, stats]
      exact sound.owned slot
    · intro handle output live
      rw [stats]
      exact sound.values handle output live
  · refine ⟨{ state := next, live := Function.update session.live handle (some output) }, ?_, ?_, ?_⟩
    · rw [Session.step, read, written]
      rfl
    · rw [used_update session.state handle _ stats]
      exact sound.owned.lend handle output
    · intro other held live field
      change Function.update session.live handle (some output) other = some held at live
      rw [stats]
      by_cases same : other = handle
      · rw [same, Function.update_self] at live ⊢
        cases live
        exact columns field
      · rw [Function.update_of_ne same] at live ⊢
        exact sound.values other held live field

theorem freeTaskStat_stat (state : State) (readHandle : UInt32) (slot : Fin maxNum) :
    ((freeTaskStat state readHandle).stats slot).stat = (state.stats slot).stat := by
  simp only [freeTaskStat, freeIndex]
  by_cases same : slot = slotOf readHandle.toNat
  · rw [same, Function.update_self]
  · rw [Function.update_of_ne same]

theorem Sound.free {readHandle : UInt32} (sound : Sound session)
    (harmless : Harmless (some session) (.freeTaskStat readHandle)) :
    ∃ after, session.step (.freeTaskStat readHandle) = some after ∧ Sound after := by
  refine ⟨_, rfl, ?_, ?_⟩
  · rw [used_update session.state (slotOf readHandle.toNat) _ rfl]
    split
    · rename_i bound
      have same : slotOf readHandle.toNat = ⟨readHandle.toNat, bound⟩ := Fin.ext (Nat.mod_eq_of_lt bound)
      rw [same]
      exact sound.owned.release _
    · rename_i outside
      -- The slot it falls on is free already.
      have free := harmless.resolve_left outside
      rw [← free, Function.update_eq_self]
      exact sound.owned
  · intro handle output live field
    have held : session.live handle = some output := by
      simp only at live
      split at live
      · rename_i bound
        by_cases same : handle = ⟨readHandle.toNat, bound⟩
        · rw [same, Function.update_self] at live
          cases live
        · rwa [Function.update_of_ne same] at live
      · exact live
    rw [← sound.values handle output held field]
    exact congrFun (freeTaskStat_stat session.state readHandle handle) _

theorem Sound.safe (sound : Sound session) : Safe session where
  fresh := by
    intro handle found
    rw [getNextIndex_fst] at found
    exact sound.owned.fresh found
  full := by
    rw [getNextIndex_fst]
    exact firstFree_eq_none_iff
  owned := sound.owned
  values := by
    intro handle output live field
    have small : (UInt32.ofNat handle.val).toNat = handle.val :=
      UInt32.toNat_ofNat_of_lt (Nat.lt_trans handle.isLt (by decide))
    rw [getter_eq, getTaskStat, dif_pos (by rw [small]; exact handle.isLt)]
    simp only [small]
    exact sound.values handle output live field

/-- Through any harmless calls every handle stays its holder's. -/
theorem harmless_calls_are_safe (calls : List Call) (harmless : Allows Session.after Harmless (some {}) calls) :
    ∃ last, calls.foldl Session.after (some {}) = some last ∧ Safe last := by
  have sound : ∃ last, calls.foldl Session.after (some {}) = some last ∧ Sound last := by
    refine harmless.runs.invariant (fun session => ∃ last, session = some last ∧ Sound last)
      ⟨{}, rfl, .none, fun _ _ live => by cases live⟩ ?_
    rintro state call after ⟨allowed, rfl⟩ ⟨session, rfl, sound⟩
    cases call with
    | readTaskStat world pid => exact sound.read allowed
    | freeTaskStat readHandle => exact sound.free allowed
  obtain ⟨last, reached, sound⟩ := sound
  exact ⟨last, reached, sound.safe⟩

/-- A task whose stat file is there, and what is read of it. -/
def sampleRead (pid : UInt32) (output : Bytes) : Call :=
  .readTaskStat { access := fun _ => true, popen := fun _ => some output } pid

def sampleOutput : Bytes := ascii "10=5\n12=0\n14=7\n15=3\n23=4096\n24=2\n"

theorem sample_calls_are_safe :
    ∃ last, [sampleRead 1 sampleOutput, .freeTaskStat 0, sampleRead 2 sampleOutput, sampleRead 3 sampleOutput].foldl
      Session.after (some {}) = some last ∧ Safe last :=
  harmless_calls_are_safe _ (by decide)

/-- The file of the second task is gone when it is read, and the utime of the
first is shown for it; and -1, freed, is slot 5, which is handed out again. -/
theorem vanished_task_shows_another :
    (∃ last, [sampleRead 1 sampleOutput, .freeTaskStat 0, sampleRead 2 []].foldl Session.after (some {}) = some last ∧
        last.live (slotOf 0) = some [] ∧ getTaskUtime last.state 0 = 7 ∧ ¬ Safe last) ∧
      ∃ last, (List.replicate 6 (sampleRead 1 sampleOutput) ++ [Call.freeTaskStat (0 - 1)]).foldl Session.after (some {}) =
          some last ∧
        last.live (slotOf 5) = some sampleOutput ∧ (getNextIndex last.state).1 = some (slotOf 5) ∧ ¬ Safe last := by
  constructor
  · refine ⟨_, rfl, rfl, rfl, ?_⟩
    intro safe
    have value := safe.values (slotOf 0) [] rfl .utime
    exact absurd value (by decide)
  · refine ⟨_, rfl, rfl, rfl, ?_⟩
    intro safe
    have unheld := safe.fresh (slotOf 5) rfl
    cases unheld

end GalaGopher.Ebpf.TaskStat
