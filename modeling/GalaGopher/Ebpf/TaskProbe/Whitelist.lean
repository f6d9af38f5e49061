import GalaGopher.Data.Registry
import GalaGopher.Ebpf.TaskProbe.Lifetimes
import GalaGopher.Text.Lines

namespace GalaGopher.Ebpf.TaskProbe

open Data Text

/-! The names of the tasks to be probed, the file that adds to them, and the
hook that looks them up. -/

def maxProcessNameLen : Nat := 32

def probeProcMapEntrySize : Nat := 128

/-- `enum task_type_e` -/
inductive TaskType where
  | app
  | kern
  | os
deriving DecidableEq

/-- `struct task_name_t` -/
structure TaskName where
  name : Bytes
  type : TaskType

def taskRange : List TaskName :=
  [⟨ascii "go", .app⟩, ⟨ascii "java", .app⟩, ⟨ascii "python", .app⟩, ⟨ascii "python3", .app⟩, ⟨ascii "nginx", .app⟩,
    ⟨ascii "redis", .app⟩, ⟨ascii "redis-server", .app⟩, ⟨ascii "redis-client", .app⟩, ⟨ascii "redis-cli", .app⟩,
    ⟨ascii "dhclient", .os⟩, ⟨ascii "NetworkManager", .os⟩, ⟨ascii "dbus", .os⟩, ⟨ascii "rpcbind", .os⟩,
    ⟨ascii "systemd", .os⟩, ⟨ascii "scsi", .kern⟩, ⟨ascii "softirq", .kern⟩, ⟨ascii "kworker", .kern⟩]

/-- `struct probe_process` -/
abbrev ProbeProcess := Vector UInt8 maxProcessNameLen

abbrev ProbeProcMap := BoundedMap ProbeProcess Int32 probeProcMapEntrySize

/-- A string copied to a name of zeros. -/
def probeProcess (name : Bytes) : ProbeProcess := .ofFn fun place => name.getD place 0

def updateProbeProc (map : ProbeProcMap) (name : Bytes) : ProbeProcMap := (map.update (probeProcess name) 1).getD map

def loadTaskRange (map : ProbeProcMap) : ProbeProcMap :=
  taskRange.foldl (fun map task => if task.type = .app then updateProbeProc map task.name else map) map

/-- One turn of the loop in `load_task_wl`. -/
def loadLine (map : ProbeProcMap) (line : Bytes) : ProbeProcMap :=
  let line := splitNewlineSymbol line
  if line.length = 0 then map else updateProbeProc map line

/-- No whitelist is one that cannot be opened. -/
def loadTaskWl (taskWhitelist : Option Bytes) (map : ProbeProcMap) : ProbeProcMap :=
  match taskWhitelist with
  | none => map
  | some file => (fgetsStrings maxProcessNameLen file).foldl loadLine map

def loaded (taskWhitelist : Option Bytes) : ProbeProcMap := loadTaskWl taskWhitelist (loadTaskRange .empty)

/-- `TASK_COMM_LEN` of the kernel -/
def taskCommLen : Nat := 16

/-- The name of a task. -/
structure Comm where
  name : Bytes
  filled : name ≠ []
  nonzero : (0 : UInt8) ∉ name
  short : name.length < taskCommLen

/-- The field `comm` of the task. -/
def Comm.field (comm : Comm) : Bytes := comm.name ++ List.replicate (taskCommLen - comm.name.length) 0

def bpfProbeReadStr (size : Nat) (source : Bytes) : Bytes := (cString source).take (size - 1)

/-- What `*buf` is of the value that is found: its first byte on a
little-endian host. -/
def flagOf (map : ProbeProcMap) (comm : Bytes) : Int32 :=
  match map.lookup (probeProcess (bpfProbeReadStr maxProcessNameLen comm)) with
  | none => 0
  | some value => value.toInt8.toInt32

def forkOf (map : ProbeProcMap) (taskMap : TaskMap) (parent child : TaskStruct) (comm : Bytes) : TaskMap :=
  schedProcessFork taskMap (flagOf map comm = 1) parent child

def applications : List Bytes := (taskRange.filter fun task => task.type = .app).map TaskName.name

def lines : Option Bytes → List Bytes
  | none => []
  | some file => file.splitOn newline

/-- The pieces of a line that the buffer has room for. -/
def linePieces (line : Bytes) : List Bytes :=
  (List.range (line.length / (maxProcessNameLen - 1) + 1)).map fun place =>
    (line.drop ((maxProcessNameLen - 1) * place)).take (maxProcessNameLen - 1)

def lineNames (line : Bytes) : List Bytes := ((linePieces line).map cString).filter fun name => name ≠ []

variable {text body rest line name : Bytes}

theorem name_open (free : newline ∉ text) : splitNewlineSymbol (cString text) = cString text :=
  splitNewlineSymbol_eq fun member => free (List.takeWhile_subset _ member)

theorem name_closed (free : newline ∉ body) : splitNewlineSymbol (cString (body ++ [newline])) = cString body := by
  by_cases zero : (0 : UInt8) ∈ body
  · obtain ⟨front, behind, rfl, nonzero⟩ := List.eq_append_cons_of_mem zero
    have cut (more : Bytes) : cString (front ++ 0 :: more) = front := cString_before nonzero more
    rw [List.append_assoc, List.cons_append, cut, cut, splitNewlineSymbol_eq fun member => free (List.mem_append_left _ member)]
  · rw [cString_closed ⟨free, zero⟩, splitNewlineSymbol_closed, cString_eq zero]

theorem linePieces_short (short : line.length < maxProcessNameLen - 1) : linePieces line = [line] := by
  rw [linePieces, Nat.div_eq_of_lt short]
  simp [List.take_of_length_le (Nat.le_of_lt short)]

theorem linePieces_full (exact : text.length = maxProcessNameLen - 1) (rest : Bytes) :
    linePieces (text ++ rest) = text :: linePieces rest := by
  have turns : (text ++ rest).length / (maxProcessNameLen - 1) = rest.length / (maxProcessNameLen - 1) + 1 := by
    rw [List.length_append, exact, Nat.add_div_left _ (by decide)]
  have front : (text ++ rest).take (maxProcessNameLen - 1) = text := by rw [← exact, List.take_left]
  have behind (place : Nat) :
      (text ++ rest).drop ((maxProcessNameLen - 1) * (place + 1)) = rest.drop ((maxProcessNameLen - 1) * place) := by
    rw [Nat.mul_succ, Nat.add_comm, ← List.drop_drop, ← exact, List.drop_left]
  rw [linePieces, turns, List.range_succ_eq_map, List.map_cons, Nat.mul_zero, List.drop_zero, front, List.map_map]
  simp only [Function.comp_def, Nat.succ_eq_add_one, behind]
  rfl

theorem lineNames_full (exact : text.length = maxProcessNameLen - 1) (rest : Bytes) :
    lineNames (text ++ rest) = ([cString text].filter fun name => name ≠ []) ++ lineNames rest := by
  rw [lineNames, linePieces_full exact, List.map_cons, ← List.singleton_append, List.filter_append]
  rfl

/-- The strings of the loop, in the lines of the file. -/
theorem names_of_cut {stream : Bytes} {texts : List Bytes} (cut : Cut newline (maxProcessNameLen - 1) stream texts) :
    ((texts.map cString).map splitNewlineSymbol).filter (fun name => name ≠ []) =
      (stream.splitOn newline).flatMap lineNames := by
  induction cut with
  | done => rfl
  | @last text free filled short =>
      rw [List.map_singleton, List.map_singleton, name_open free, List.splitOn_eq_singleton free, List.flatMap_singleton,
        lineNames, linePieces_short short]
      rfl
  | @closed body rest texts free short tail ih =>
      rw [List.map_cons, List.map_cons, name_closed free, ← List.singleton_append, List.filter_append, ih,
        List.splitOn_append_cons_self_of_not_mem free, List.flatMap_cons]
      conv_rhs => rw [lineNames, linePieces_short short]
      rfl
  | @full text rest texts free exact tail ih =>
      rw [List.map_cons, List.map_cons, name_open free, ← List.singleton_append, List.filter_append, ih]
      by_cases present : newline ∈ rest
      · obtain ⟨front, later, rfl, fresh⟩ := List.eq_append_cons_of_mem present
        have whole : newline ∉ text ++ front := by
          rw [List.mem_append, not_or]
          exact ⟨free, fresh⟩
        rw [← List.append_assoc, List.splitOn_append_cons_self_of_not_mem whole,
          List.splitOn_append_cons_self_of_not_mem fresh, List.flatMap_cons, List.flatMap_cons, lineNames_full exact,
          List.append_assoc]
      · have whole : newline ∉ text ++ rest := by
          rw [List.mem_append, not_or]
          exact ⟨free, present⟩
        rw [List.splitOn_eq_singleton whole, List.splitOn_eq_singleton present, List.flatMap_singleton,
          List.flatMap_singleton, lineNames_full exact]

/-- The names that the two loops bring, in order. -/
def names (taskWhitelist : Option Bytes) : List Bytes := applications ++ (lines taskWhitelist).flatMap lineNames

/-- A string that has room in a name with its end. -/
structure Nameable (name : Bytes) : Prop where
  nonzero : (0 : UInt8) ∉ name
  short : name.length < maxProcessNameLen

theorem Comm.nameable (comm : Comm) : Nameable comm.name := ⟨comm.nonzero, Nat.lt_trans comm.short (by decide)⟩

theorem toList_probeProcess (nameable : Nameable name) :
    (probeProcess name).toList = name ++ List.replicate (maxProcessNameLen - name.length) 0 := by
  have short := nameable.short
  rw [probeProcess, Vector.toList_ofFn]
  refine List.ext_getElem ?_ fun place inside _ => ?_
  · rw [List.length_ofFn, List.length_append, List.length_replicate]
    omega
  · rw [List.getElem_ofFn, List.getElem_append]
    split
    case isTrue within => exact (List.getElem_eq_getD 0).symm
    case isFalse outside =>
        rw [List.getElem_replicate, List.getD_eq_getElem?_getD, List.getElem?_eq_none (Nat.le_of_not_lt outside), Option.getD_none]

theorem probeProcess_inj {other : Bytes} (first : Nameable name) (second : Nameable other)
    (same : probeProcess name = probeProcess other) : name = other := by
  have strings := congrArg (fun name : ProbeProcess => cString name.toList) same
  simp only [toList_probeProcess first, toList_probeProcess second] at strings
  rwa [cString_padded first.nonzero, cString_padded second.nonzero] at strings

theorem nameable_lineName (member : name ∈ lineNames line) : Nameable name := by
  obtain ⟨piece, cut, rfl⟩ := List.mem_map.mp (List.mem_filter.mp member).1
  obtain ⟨place, _, rfl⟩ := List.mem_map.mp cut
  refine ⟨cString_nonzero _, ?_⟩
  have within := (List.takeWhile_prefix fun byte : UInt8 => byte ≠ 0).length_le.trans
    (List.length_take_le (maxProcessNameLen - 1) (line.drop ((maxProcessNameLen - 1) * place)))
  exact Nat.lt_of_le_of_lt within (by decide)

theorem nameable_application : ∀ name ∈ applications, (0 : UInt8) ∉ name ∧ name.length < maxProcessNameLen := by decide

theorem nameable_names (taskWhitelist : Option Bytes) (member : name ∈ names taskWhitelist) :
    Nameable name := by
  rcases List.mem_append.mp member with application | listed
  · exact ⟨(nameable_application name application).1, (nameable_application name application).2⟩
  · obtain ⟨line, _, piece⟩ := List.mem_flatMap.mp listed
    exact nameable_lineName piece

theorem foldl_updateProbeProc (names : List Bytes) (map : ProbeProcMap) :
    names.foldl updateProbeProc map = map.store 1 (names.map probeProcess) := by
  rw [BoundedMap.store, List.foldl_map]
  rfl

theorem foldl_loadLine (texts : List Bytes) (map : ProbeProcMap) :
    texts.foldl loadLine map =
      ((texts.map splitNewlineSymbol).filter fun name => name ≠ []).foldl updateProbeProc map := by
  rw [List.foldl_filter, List.foldl_map]
  congr 1
  funext map text
  simp only [loadLine, List.length_eq_zero_iff, ne_eq, decide_not, Bool.not_eq_true', decide_eq_false_iff_not, ite_not]

theorem loaded_eq (taskWhitelist : Option Bytes) :
    loaded taskWhitelist = BoundedMap.empty.store 1 ((names taskWhitelist).map probeProcess) := by
  have range (map : ProbeProcMap) : loadTaskRange map = applications.foldl updateProbeProc map := by
    rw [loadTaskRange, applications, List.foldl_map, List.foldl_filter]
    simp only [decide_eq_true_eq]
  rw [loaded, range, ← foldl_updateProbeProc, names, List.foldl_append]
  cases taskWhitelist with
  | none => rw [loadTaskWl, lines, List.flatMap_nil, List.foldl_nil]
  | some file =>
      rw [loadTaskWl, foldl_loadLine, fgetsStrings, names_of_cut (cut_pieces (by decide) file)]
      rfl

/-- The map holds the first different names. -/
theorem flagOf_loaded (taskWhitelist : Option Bytes) (comm : Comm) :
    flagOf (loaded taskWhitelist) comm.field =
      if comm.name ∈ (names taskWhitelist).eraseDups.take probeProcMapEntrySize then 1 else 0 := by
  have apart : ∀ name ∈ names taskWhitelist, ∀ other ∈ names taskWhitelist,
      probeProcess name = probeProcess other → name = other := fun _ first _ second =>
    probeProcess_inj (nameable_names taskWhitelist first) (nameable_names taskWhitelist second)
  have key : bpfProbeReadStr maxProcessNameLen comm.field = comm.name := by
    rw [bpfProbeReadStr, Comm.field, cString_padded comm.nonzero, List.take_of_length_le (Nat.le_sub_one_of_lt comm.nameable.short)]
  have among : probeProcess comm.name ∈ ((names taskWhitelist).eraseDups.take probeProcMapEntrySize).map probeProcess ↔
      comm.name ∈ (names taskWhitelist).eraseDups.take probeProcMapEntrySize := by
    rw [List.mem_map]
    refine ⟨?_, fun member => ⟨_, member, rfl⟩⟩
    rintro ⟨name, member, same⟩
    have nameable := nameable_names taskWhitelist (List.mem_eraseDups.mp (List.mem_of_mem_take member))
    exact probeProcess_inj nameable comm.nameable same ▸ member
  rw [flagOf, key, loaded_eq, BoundedMap.lookup_store, BoundedMap.eraseDups_map apart, ← List.map_take]
  by_cases kept : comm.name ∈ (names taskWhitelist).eraseDups.take probeProcMapEntrySize
  · rw [if_pos (among.mpr kept), if_pos kept]
    rfl
  · rw [if_neg fun found => kept (among.mp found), if_neg kept]

def childData (parent child : TaskStruct) : TaskData where
  id := { pid := child.pid, tgid := child.tgid, ppid := parent.pid, pgid := child.pgid }

def Room (taskMap : TaskMap) (pid : TaskKey) : Prop :=
  (taskMap.lookup pid).isSome ∨ taskMap.entries.length < shareMapTaskMaxEntries

variable {taskMap : TaskMap} {parent child : TaskStruct}

theorem lookup_addChild (room : Room taskMap child.pid) :
    (addChild taskMap parent child).lookup child.pid = some (childData parent child) := by
  cases updated : taskMap.update child.pid (childData parent child) with
  | none =>
      obtain ⟨absent, full⟩ := (taskMap.update_eq_none_iff child.pid _).mp updated
      rcases room with present | room
      · rw [absent] at present
        cases present
      · exact absurd full (Nat.not_le.mpr room)
  | some after =>
      have same : addChild taskMap parent child = (taskMap.update child.pid (childData parent child)).getD taskMap := rfl
      rw [same, updated, Option.getD_some, BoundedMap.lookup_update updated, if_pos rfl]

theorem lookup_countFork_other (different : parent.pid ≠ child.pid) :
    (countFork taskMap parent child).lookup child.pid = taskMap.lookup child.pid := by
  unfold countFork
  split
  case h_1 => exact BoundedMap.lookup_modify_of_ne (Ne.symm different) _
  case h_2 =>
      unfold updTaskEntry
      cases updated : taskMap.update parent.pid
          { id := { pid := parent.pid, tgid := parent.tgid, ppid := -1, pgid := child.pgid }, base := { forkCount := 1 } } with
      | none => rfl
      | some after => rw [Option.getD_some, BoundedMap.lookup_update updated, if_neg (Ne.symm different)]

/-- A line of the file is the name, when it is cut as the kernel cuts names. -/
def Listed (taskWhitelist : Option Bytes) (comm : Comm) : Prop :=
  ∃ line ∈ lines taskWhitelist, line.take (taskCommLen - 1) = comm.name

/-- The child is added, when there is room for it, for the names of the
applications and of the file; with another name nothing changes. -/
structure Selects (taskWhitelist : Option Bytes) (comm : Comm) : Prop where
  adds : comm.name ∈ applications ∨ Listed taskWhitelist comm →
    ∀ (taskMap : TaskMap) (parent child : TaskStruct), parent.pid ≠ child.pid → Room taskMap child.pid →
      (forkOf (loaded taskWhitelist) taskMap parent child comm.field).lookup child.pid = some (childData parent child)
  leaves : ¬ (comm.name ∈ applications ∨ Listed taskWhitelist comm) →
    ∀ (taskMap : TaskMap) (parent child : TaskStruct),
      forkOf (loaded taskWhitelist) taskMap parent child comm.field = taskMap

theorem lookup_forkOf_set {map : ProbeProcMap} {comm : Bytes} (set : flagOf map comm = 1) (different : parent.pid ≠ child.pid)
    (room : Room taskMap child.pid) :
    (forkOf map taskMap parent child comm).lookup child.pid = some (childData parent child) := by
  rw [forkOf, schedProcessFork, if_pos (by rw [set]; rfl), lookup_countFork_other different, lookup_addChild room]

theorem forkOf_unset {map : ProbeProcMap} {comm : Bytes} (unset : flagOf map comm ≠ 1) :
    forkOf map taskMap parent child comm = taskMap := by
  rw [forkOf, schedProcessFork, if_neg (by simpa using unset)]

theorem selects_iff (taskWhitelist : Option Bytes) (comm : Comm) :
    Selects taskWhitelist comm ↔
      (comm.name ∈ applications ∨ Listed taskWhitelist comm ↔ flagOf (loaded taskWhitelist) comm.field = 1) := by
  have room : Room .empty (2 : TaskKey) := .inr (by decide)
  have different : (1 : TaskKey) ≠ 2 := by decide
  constructor
  · intro selects
    constructor
    · intro named
      by_contra unset
      have added := selects.adds named .empty ⟨1, 1, 1⟩ ⟨2, 2, 1⟩ different room
      rw [forkOf_unset unset] at added
      cases added
    · intro set
      by_contra unnamed
      have added : (forkOf (loaded taskWhitelist) .empty ⟨1, 1, 1⟩ ⟨2, 2, 1⟩ comm.field).lookup 2 =
          some (childData ⟨1, 1, 1⟩ ⟨2, 2, 1⟩) := lookup_forkOf_set set different room
      rw [selects.leaves unnamed] at added
      cases added
  · intro same
    exact {
      adds := fun named _ _ _ different room => lookup_forkOf_set (same.mp named) different room
      leaves := fun unnamed _ _ _ => forkOf_unset fun set => unnamed (same.mpr set) }

/-- The name is what the kernel leaves of a longer line. -/
def Shortened (taskWhitelist : Option Bytes) (comm : Comm) : Prop :=
  ∃ line ∈ lines taskWhitelist, taskCommLen ≤ line.length ∧ line.take (taskCommLen - 1) = comm.name

/-- The name is what the buffer holds of another line at a time. -/
def Torn (taskWhitelist : Option Bytes) (comm : Comm) : Prop :=
  ∃ line ∈ lines taskWhitelist, line ≠ comm.name ∧ comm.name ∈ (linePieces line).map cString

theorem listed_iff (taskWhitelist : Option Bytes) (comm : Comm) :
    Listed taskWhitelist comm ↔ comm.name ∈ lines taskWhitelist ∨ Shortened taskWhitelist comm := by
  constructor
  · rintro ⟨line, member, same⟩
    rcases Nat.lt_or_ge line.length taskCommLen with short | long
    · rw [List.take_of_length_le (Nat.le_sub_one_of_lt short)] at same
      exact .inl (same ▸ member)
    · exact .inr ⟨line, member, long, same⟩
  · rintro (member | ⟨line, member, _, same⟩)
    · exact ⟨_, member, List.take_of_length_le (Nat.le_sub_one_of_lt comm.short)⟩
    · exact ⟨line, member, same⟩

theorem mem_names_iff (taskWhitelist : Option Bytes) (comm : Comm) :
    comm.name ∈ names taskWhitelist ↔
      comm.name ∈ applications ∨ comm.name ∈ lines taskWhitelist ∨ Torn taskWhitelist comm := by
  have filled : decide (comm.name ≠ []) = true := decide_eq_true comm.filled
  rw [names, List.mem_append, List.mem_flatMap]
  refine or_congr_right ⟨?_, ?_⟩
  · rintro ⟨line, member, piece⟩
    by_cases same : line = comm.name
    · exact .inl (same ▸ member)
    · exact .inr ⟨line, member, same, (List.mem_filter.mp piece).1⟩
  · rintro (member | ⟨line, member, _, piece⟩)
    · refine ⟨_, member, List.mem_filter.mpr ⟨?_, filled⟩⟩
      rw [linePieces_short (Nat.lt_trans comm.short (by decide)), List.map_singleton, cString_eq comm.nonzero]
      exact List.mem_singleton_self _
    · exact ⟨line, member, List.mem_filter.mpr ⟨piece, filled⟩⟩

theorem application_kept (taskWhitelist : Option Bytes) (comm : Comm) (application : comm.name ∈ applications) :
    comm.name ∈ (names taskWhitelist).eraseDups.take probeProcMapEntrySize := by
  have front : applications.eraseDups.length ≤ probeProcMapEntrySize := by decide
  rw [names, List.eraseDups_append, List.take_append, List.take_of_length_le front]
  exact List.mem_append_left _ (List.mem_eraseDups.mpr application)

/-- A task is selected rightly when it is an application, or when its name is
listed just if it is among the first names that the map has room for.  With
room for all names, the wrong ones are what is cut off a line. -/
theorem fork_selects_iff (taskWhitelist : Option Bytes) (comm : Comm) :
    (Selects taskWhitelist comm ↔
      comm.name ∈ applications ∨
        (Listed taskWhitelist comm ↔ comm.name ∈ (names taskWhitelist).eraseDups.take probeProcMapEntrySize)) ∧
    ((names taskWhitelist).eraseDups.length ≤ probeProcMapEntrySize →
      (Selects taskWhitelist comm ↔
        comm.name ∈ applications ∨ comm.name ∈ lines taskWhitelist ∨
          (Shortened taskWhitelist comm ↔ Torn taskWhitelist comm))) := by
  have flag : flagOf (loaded taskWhitelist) comm.field = 1 ↔
      comm.name ∈ (names taskWhitelist).eraseDups.take probeProcMapEntrySize := by
    rw [flagOf_loaded]
    split
    case isTrue kept => exact iff_of_true rfl kept
    case isFalse missing => exact iff_of_false (by decide) missing
  have kept := application_kept taskWhitelist comm
  have general : Selects taskWhitelist comm ↔
      comm.name ∈ applications ∨
        (Listed taskWhitelist comm ↔ comm.name ∈ (names taskWhitelist).eraseDups.take probeProcMapEntrySize) := by
    rw [selects_iff, flag]
    by_cases application : comm.name ∈ applications
    · exact iff_of_true (iff_of_true (.inl application) (kept application)) (.inl application)
    · rw [or_iff_right application, or_iff_right application]
  refine ⟨general, fun fits => ?_⟩
  rw [general, List.take_of_length_le fits, List.mem_eraseDups, mem_names_iff, listed_iff]
  refine or_congr_right' fun other => ?_
  rw [or_iff_right other]
  by_cases whole : comm.name ∈ lines taskWhitelist
  · exact iff_of_true (iff_of_true (.inl whole) (.inl whole)) (.inl whole)
  · rw [or_iff_right whole, or_iff_right whole, or_iff_right whole]

def gunicorn : Comm where
  name := ascii "gunicorn-worker"
  filled := by decide
  nonzero := by decide
  short := by decide

/-- A line of sixteen bytes names a task that the kernel calls by fifteen. -/
theorem cut_name_unselected :
    let taskWhitelist := some (ascii "gunicorn-workers\n")
    Listed taskWhitelist gunicorn ∧ flagOf (loaded taskWhitelist) gunicorn.field = 0 ∧ ¬ Selects taskWhitelist gunicorn := by
  have listed : Listed (some (ascii "gunicorn-workers\n")) gunicorn :=
    ⟨ascii "gunicorn-workers", by decide, by decide⟩
  have unset : flagOf (loaded (some (ascii "gunicorn-workers\n"))) gunicorn.field = 0 := by
    rw [flagOf_loaded, if_neg (by decide)]
  refine ⟨listed, unset, fun selects => ?_⟩
  have set := ((selects_iff _ _).mp selects).mp (.inr listed)
  rw [unset] at set
  exact absurd set (by decide)

end GalaGopher.Ebpf.TaskProbe
