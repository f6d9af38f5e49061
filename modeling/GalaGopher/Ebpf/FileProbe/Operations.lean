import GalaGopher.Ebpf.FileProbe
import GalaGopher.Text.Lines
import GalaGopher.Text.Scan

namespace GalaGopher.Ebpf.FileProbe

open Data Text

def snoopFilesMaxNum : Nat := 100

def permissionMax : Nat := 10

def fileNameLen : Nat := 256

def opTypeRead : UInt32 := 1

def opTypeWrite : UInt32 := 2

structure InodePermissions where
  permission : UInt32
  exe : CharArray fileNameLen

structure SnoopFile where
  file : Bytes
  exe : Bytes
  permission : UInt32

/-- The two maps, whose keys are inode numbers. -/
structure Maps where
  snoopFiles : BoundedMap UInt64 UInt32 snoopFilesMaxNum
  permissions : BoundedMap UInt64 InodePermissions permissionMax

/-- What the calls tell of a file; `pipe` is what the command prints, if it
starts. -/
structure Host where
  isValidFile : Bytes → Bool
  isExecutableFile : Bytes → Bool
  pipe : Bytes → Option Bytes

def getFileInodeId (host : Host) (fileName : Bytes) : Outcome UInt32 :=
  match host.pipe fileName with
  | none => .error .failed
  | some stream =>
      match fgetsStrings 32 stream with
      | [] => .error .failed
      | line :: _ => .ok (atoi line).toUInt32

def updateSnoopFiles (host : Host) (fileName : Bytes) (maps : Maps) : Outcome Maps :=
  if !host.isValidFile fileName then .error .failed
  else do
    let iInode ← getFileInodeId host fileName
    match maps.snoopFiles.update iInode.toUInt64 0 with
    | none => .error .failed
    | some snoopFiles => return { maps with snoopFiles }

def updatePermissions (host : Host) (fileName exe : Bytes) (permission : UInt32) (maps : Maps) : Outcome Maps := do
  let inodeExe ← snprintf fileNameLen exe
  if !host.isExecutableFile exe then .error .failed
  else if !host.isValidFile fileName then .error .failed
  else
    let iInode ← getFileInodeId host fileName
    match maps.permissions.update iInode.toUInt64 { permission, exe := inodeExe } with
    | none => .error .failed
    | some permissions => return { maps with permissions }

/-- A file goes into both maps. -/
def register (host : Host) (maps : Maps) (file : SnoopFile) : Outcome Maps := do
  let maps ← updateSnoopFiles host file.file maps
  updatePermissions host file.file file.exe file.permission maps

def registerAll (host : Host) : List SnoopFile → Maps → Outcome Maps
  | [], maps => .ok maps
  | file :: rest, maps => do
      let maps ← register host maps file
      registerAll host rest maps

/-- 0 for a file that is in the map. -/
def isSnoopFile (maps : Maps) (inode : UInt64) : Int :=
  match maps.snoopFiles.lookup inode with
  | some _ => 0
  | none => 1

/-- A read through the pointer that a lookup has left. -/
def readPermission : Option InodePermissions → Outcome UInt32
  | some permission => .ok permission.permission
  | none => .error .undefined

/-- The body of both hooks, which check one bit each. -/
def vfsProbe (opType : UInt32) (maps : Maps) (inode ts : UInt64) (suspicious : SuspiciousOpMap) :
    Outcome SuspiciousOpMap :=
  if isSnoopFile maps inode = 0 then .ok suspicious
  else
    let permission := maps.permissions.lookup inode
    if permission.isSome then .ok suspicious
    else do
      let mask ← readPermission permission
      if mask &&& opType = 0 then
        return (suspicious.update { inode, ts } { opType := opType.toInt32, exe := [] }).getD suspicious
      else
        return suspicious

def vfsOpenProbe := vfsProbe opTypeRead

def vfsWriteProbe := vfsProbe opTypeWrite

inductive Operation where
  | open
  | write

def Operation.opType : Operation → UInt32
  | .open => opTypeRead
  | .write => opTypeWrite

structure Event where
  operation : Operation
  inode : UInt64
  ts : UInt64

def probe (maps : Maps) (event : Event) (suspicious : SuspiciousOpMap) : Outcome SuspiciousOpMap :=
  match event.operation with
  | .open => vfsOpenProbe maps event.inode event.ts suspicious
  | .write => vfsWriteProbe maps event.inode event.ts suspicious

def run (maps : Maps) : List Event → SuspiciousOpMap → Outcome SuspiciousOpMap
  | [], suspicious => .ok suspicious
  | event :: rest, suspicious => do
      let suspicious ← probe maps event suspicious
      run maps rest suspicious

/-- What is left of an inode number on its way through `long` and `int`. -/
def narrow (inode : UInt64) : UInt64 :=
  let number : Int := inode.toNat
  (Int32.ofInt (if longMax < number then longMax else number)).toUInt32.toUInt64

/-- `ls -i` prints the number of the inode of every file. -/
def Host.Lists (host : Host) (inodeOf : Bytes → UInt64) : Prop :=
  ∀ fileName stream, host.pipe fileName = some stream → stream = ascii (toString (inodeOf fileName).toNat) ++ [newline]

variable {host : Host} {inodeOf : Bytes → UInt64} {maps after : Maps} {files : List SnoopFile}

theorem atoi_line (inode : UInt64) :
    (atoi (ascii (toString inode.toNat) ++ [newline])).toUInt32.toUInt64 = narrow inode := by
  have shape := whole_printed inode.toNat
  have value := leadingNumber_front shape.digits (show isDigit newline = false by decide) []
  rw [leadingNumber_printed] at value
  obtain ⟨first, rest, text, unspaced, unsigned, unmarked⟩ := shape.begins
  rw [text, List.cons_append] at value ⊢
  have begins : (first :: (rest ++ [newline])).dropWhile isSpace = first :: (rest ++ [newline]) :=
    List.dropWhile_cons_of_neg (by rw [unspaced]; exact Bool.false_ne_true)
  rw [atoi, strtol, begins]
  simp only [if_neg unsigned, if_neg unmarked, value]
  rfl

theorem getFileInodeId_eq (lists : host.Lists inodeOf) {fileName : Bytes} {iInode : UInt32}
    (got : getFileInodeId host fileName = .ok iInode) : iInode.toUInt64 = narrow (inodeOf fileName) := by
  rw [getFileInodeId] at got
  cases piped : host.pipe fileName with
  | none =>
      rw [piped] at got
      cases got
  | some stream =>
      have short : (ascii (toString (inodeOf fileName).toNat)).length ≤ 20 :=
        length_printed_le (by decide) (Nat.lt_trans (inodeOf fileName).toNat_lt (by decide))
      have digits := (whole_printed (inodeOf fileName).toNat).digits
      have lineal : Lineal (ascii (toString (inodeOf fileName).toNat)) :=
        ⟨fun member => absurd (digits _ member) (by decide), fun member => absurd (digits _ member) (by decide)⟩
      have line : fgetsStrings 32 stream = [ascii (toString (inodeOf fileName).toNat) ++ [newline]] := by
        rw [lists fileName stream piped]
        exact fgetsStrings_closed lineal (Nat.lt_of_le_of_lt short (by decide)) []
      rw [piped] at got
      simp only [line, Except.ok.injEq] at got
      rw [← got, atoi_line]

theorem updateSnoopFiles_spec (lists : host.Lists inodeOf) {fileName : Bytes}
    (updated : updateSnoopFiles host fileName maps = .ok after) :
    after.permissions = maps.permissions ∧ ∀ key, after.snoopFiles.lookup key =
      if key = narrow (inodeOf fileName) then some 0 else maps.snoopFiles.lookup key := by
  rw [updateSnoopFiles] at updated
  split at updated
  case isTrue => cases updated
  case isFalse =>
      obtain ⟨iInode, got, updated⟩ := Outcome.bind_ok_iff.mp updated
      rw [getFileInodeId_eq lists got] at updated
      cases stored : maps.snoopFiles.update (narrow (inodeOf fileName)) 0 with
      | none =>
          rw [stored] at updated
          cases updated
      | some snoopFiles =>
          rw [stored] at updated
          cases updated
          exact ⟨rfl, BoundedMap.lookup_update stored⟩

theorem updatePermissions_spec (lists : host.Lists inodeOf) {fileName exe : Bytes} {permission : UInt32}
    (updated : updatePermissions host fileName exe permission maps = .ok after) :
    after.snoopFiles = maps.snoopFiles ∧ ∀ key, (after.permissions.lookup key).isSome ↔
      key = narrow (inodeOf fileName) ∨ (maps.permissions.lookup key).isSome := by
  rw [updatePermissions] at updated
  obtain ⟨inodeExe, _, updated⟩ := Outcome.bind_ok_iff.mp updated
  split at updated
  case isTrue => cases updated
  case isFalse =>
      split at updated
      case isTrue => cases updated
      case isFalse =>
          obtain ⟨iInode, got, updated⟩ := Outcome.bind_ok_iff.mp updated
          rw [getFileInodeId_eq lists got] at updated
          cases stored : maps.permissions.update (narrow (inodeOf fileName)) { permission, exe := inodeExe } with
          | none =>
              rw [stored] at updated
              cases updated
          | some permissions =>
              rw [stored] at updated
              cases updated
              refine ⟨rfl, fun key => ?_⟩
              rw [BoundedMap.lookup_update stored]
              by_cases same : key = narrow (inodeOf fileName) <;> simp [same]

/-- The keys of both maps are the numbers that are left of those registered. -/
def Keyed (maps : Maps) (Key : UInt64 → Prop) : Prop :=
  ∀ key, ((maps.snoopFiles.lookup key).isSome ↔ Key key) ∧ ((maps.permissions.lookup key).isSome ↔ Key key)

theorem register_keys (lists : host.Lists inodeOf) {file : SnoopFile} {Key : UInt64 → Prop} (keyed : Keyed maps Key)
    (registered : register host maps file = .ok after) :
    Keyed after fun key => key = narrow (inodeOf file.file) ∨ Key key := by
  obtain ⟨between, snooped, permitted⟩ := Outcome.bind_ok_iff.mp registered
  obtain ⟨keptPermissions, snoopLookup⟩ := updateSnoopFiles_spec lists snooped
  obtain ⟨keptSnoop, permissionLookup⟩ := updatePermissions_spec lists permitted
  intro key
  constructor
  · rw [keptSnoop, snoopLookup]
    by_cases same : key = narrow (inodeOf file.file)
    · simp [same]
    · rw [if_neg same, (keyed key).1]
      simp [same]
  · rw [permissionLookup, keptPermissions, (keyed key).2]

theorem registerAll_keys (lists : host.Lists inodeOf) (Key : UInt64 → Prop) (keyed : Keyed maps Key)
    (registered : registerAll host files maps = .ok after) :
    Keyed after fun key => Key key ∨ ∃ file ∈ files, key = narrow (inodeOf file.file) := by
  induction files generalizing maps Key with
  | nil =>
      cases registered
      simpa [Keyed] using keyed
  | cons file rest ih =>
      obtain ⟨next, first, later⟩ := Outcome.bind_ok_iff.mp registered
      have keys := ih _ (register_keys lists keyed first) later
      intro key
      have same : ((key = narrow (inodeOf file.file) ∨ Key key) ∨ ∃ file ∈ rest, key = narrow (inodeOf file.file)) ↔
          (Key key ∨ ∃ other ∈ file :: rest, key = narrow (inodeOf other.file)) := by
        simp only [List.mem_cons, exists_eq_or_imp]
        rw [or_comm (a := key = narrow (inodeOf file.file)), or_assoc]
      exact ⟨(keys key).1.trans same, (keys key).2.trans same⟩

/-- The mask that was registered last for the inode. -/
def maskOf (inodeOf : Bytes → UInt64) (files : List SnoopFile) (inode : UInt64) : Option UInt32 :=
  (files.reverse.find? fun file => inodeOf file.file = inode).map SnoopFile.permission

/-- The file is registered, without the bit of the operation. -/
def Forbidden (inodeOf : Bytes → UInt64) (files : List SnoopFile) (event : Event) : Prop :=
  ∃ mask, maskOf inodeOf files event.inode = some mask ∧ mask &&& event.operation.opType = 0

/-- No event reads through nothing, and the map has an entry for exactly the
forbidden ones. -/
def Reports (inodeOf : Bytes → UInt64) (files : List SnoopFile) (maps : Maps) (events : List Event) : Prop :=
  ∃ suspicious, run maps events .empty = .ok suspicious ∧
    ∀ key value, suspicious.lookup key = some value ↔
      ∃ event ∈ events, Forbidden inodeOf files event ∧ key = { inode := event.inode, ts := event.ts } ∧
        value = { opType := event.operation.opType.toInt32, exe := [] }

/-- The inode of the event is one the maps have, and the operation is allowed. -/
def Quiet (inodeOf : Bytes → UInt64) (files : List SnoopFile) (event : Event) : Prop :=
  (∃ file ∈ files, event.inode = narrow (inodeOf file.file)) ∧ ¬ Forbidden inodeOf files event

variable {events : List Event} {suspicious : SuspiciousOpMap}

/-- An event leaves the map as it is, or reads through nothing. -/
theorem probe_eq {Key : UInt64 → Prop} (keyed : Keyed maps Key) (event : Event) (suspicious : SuspiciousOpMap) :
    (Key event.inode ∧ probe maps event suspicious = .ok suspicious) ∨
      (¬ Key event.inode ∧ probe maps event suspicious = .error .undefined) := by
  have both : probe maps event suspicious = vfsProbe event.operation.opType maps event.inode event.ts suspicious := by
    rw [probe]
    cases event.operation <;> rfl
  rw [both, vfsProbe, isSnoopFile]
  cases snooped : maps.snoopFiles.lookup event.inode with
  | some flag =>
      have key : Key event.inode := (keyed event.inode).1.mp (by rw [snooped]; rfl)
      exact .inl ⟨key, rfl⟩
  | none =>
      have other : ¬ Key event.inode := fun key => by
        have found := (keyed event.inode).1.mpr key
        rw [snooped] at found
        cases found
      have missing : maps.permissions.lookup event.inode = none := by
        by_contra found
        exact other ((keyed event.inode).2.mp (Option.isSome_iff_ne_none.mpr found))
      refine .inr ⟨other, ?_⟩
      rw [missing]
      rfl

theorem run_eq {Key : UInt64 → Prop} (keyed : Keyed maps Key) (events : List Event) (suspicious : SuspiciousOpMap) :
    ((∀ event ∈ events, Key event.inode) ∧ run maps events suspicious = .ok suspicious) ∨
      (¬ (∀ event ∈ events, Key event.inode) ∧ run maps events suspicious = .error .undefined) := by
  induction events with
  | nil => exact .inl ⟨by simp, rfl⟩
  | cons event rest ih =>
      rw [List.forall_mem_cons, run]
      rcases probe_eq keyed event suspicious with ⟨key, kept⟩ | ⟨other, failed⟩
      · rw [kept]
        rcases ih with ⟨keys, later⟩ | ⟨others, later⟩
        · exact .inl ⟨⟨key, keys⟩, later⟩
        · exact .inr ⟨fun all => others all.2, later⟩
      · rw [failed]
        exact .inr ⟨fun all => other all.1, rfl⟩

theorem registered_keys (lists : host.Lists inodeOf)
    (registered : registerAll host files { snoopFiles := .empty, permissions := .empty } = .ok maps) :
    Keyed maps fun key => ∃ file ∈ files, key = narrow (inodeOf file.file) := by
  have keyed := registerAll_keys lists (fun _ => False) (by simp [Keyed]) registered
  simpa only [false_or] using keyed

theorem quiet_of_reports (keyed : Keyed maps fun key => ∃ file ∈ files, key = narrow (inodeOf file.file))
    (reports : Reports inodeOf files maps events) : ∀ event ∈ events, Quiet inodeOf files event := by
  obtain ⟨suspicious, ran, exact⟩ := reports
  intro event member
  rcases run_eq keyed events .empty with ⟨keys, kept⟩ | ⟨_, failed⟩
  · rw [kept, Except.ok.injEq] at ran
    refine ⟨keys event member, fun forbidden => ?_⟩
    have entry := (exact _ _).mpr ⟨event, member, forbidden, rfl, rfl⟩
    rw [← ran] at entry
    cases entry
  · rw [failed] at ran
    cases ran

/-- The run reports what it should exactly when all events are quiet. -/
theorem run_reports_iff (lists : host.Lists inodeOf)
    (registered : registerAll host files { snoopFiles := .empty, permissions := .empty } = .ok maps)
    (events : List Event) : Reports inodeOf files maps events ↔ ∀ event ∈ events, Quiet inodeOf files event := by
  have keyed := registered_keys lists registered
  refine ⟨quiet_of_reports keyed, fun quiet => ?_⟩
  rcases run_eq keyed events .empty with ⟨_, kept⟩ | ⟨others, _⟩
  · refine ⟨.empty, kept, fun key value => ?_⟩
    rw [BoundedMap.lookup_empty]
    refine iff_of_false (fun none => by cases none) ?_
    rintro ⟨event, member, forbidden, _⟩
    exact (quiet event member).2 forbidden
  · exact absurd (fun event member => (quiet event member).1) others

def sampleInode (fileName : Bytes) : UInt64 := if fileName = ascii "/etc/passwd" then 42 else 43

def sampleHost : Host where
  isValidFile _ := true
  isExecutableFile _ := true
  pipe fileName := some (ascii (toString (sampleInode fileName).toNat) ++ [newline])

theorem sampleHost_lists : sampleHost.Lists sampleInode := by
  intro fileName stream piped
  exact (Option.some.inj piped).symm

def readable : SnoopFile where
  file := ascii "/etc/passwd"
  exe := ascii "/usr/bin/cat"
  permission := opTypeRead

def changeable : SnoopFile where
  file := ascii "/etc/shadow"
  exe := ascii "/usr/bin/passwd"
  permission := opTypeRead ||| opTypeWrite

theorem exists_registered {files : List SnoopFile}
    (ended : (registerAll sampleHost files { snoopFiles := .empty, permissions := .empty }).isOk = true) :
    ∃ maps, registerAll sampleHost files { snoopFiles := .empty, permissions := .empty } = .ok maps := by
  cases result : registerAll sampleHost files { snoopFiles := .empty, permissions := .empty } with
  | ok maps => exact ⟨maps, rfl⟩
  | error fault =>
      rw [result] at ended
      cases ended

theorem not_forbidden {inodeOf : Bytes → UInt64} {files : List SnoopFile} {event : Event} {mask : UInt32}
    (found : maskOf inodeOf files event.inode = some mask) (allowed : mask &&& event.operation.opType ≠ 0) :
    ¬ Forbidden inodeOf files event := by
  rintro ⟨other, registered, missing⟩
  cases found.symm.trans registered
  exact allowed missing

/-- Two files, and events that their masks allow. -/
theorem run_reports_allowed : ∃ maps,
    registerAll sampleHost [readable, changeable] { snoopFiles := .empty, permissions := .empty } = .ok maps ∧
      Reports sampleInode [readable, changeable] maps [⟨.open, 42, 1⟩, ⟨.write, 43, 2⟩, ⟨.open, 43, 3⟩] := by
  have ended : (registerAll sampleHost [readable, changeable] { snoopFiles := .empty, permissions := .empty }).isOk = true := by
    decide +kernel
  obtain ⟨maps, registered⟩ := exists_registered ended
  refine ⟨maps, registered, (run_reports_iff sampleHost_lists registered _).mpr ?_⟩
  have first : maskOf sampleInode [readable, changeable] 42 = some opTypeRead := by decide +kernel
  have second : maskOf sampleInode [readable, changeable] 43 = some (opTypeRead ||| opTypeWrite) := by decide +kernel
  intro event member
  simp only [List.mem_cons, List.not_mem_nil, or_false] at member
  rcases member with rfl | rfl | rfl
  · exact ⟨⟨readable, List.mem_cons_self, by decide +kernel⟩, not_forbidden first (by decide)⟩
  · exact ⟨⟨changeable, List.mem_cons_of_mem _ List.mem_cons_self, by decide +kernel⟩, not_forbidden second (by decide)⟩
  · exact ⟨⟨changeable, List.mem_cons_of_mem _ List.mem_cons_self, by decide +kernel⟩, not_forbidden second (by decide)⟩

/-- A write that the mask forbids has no entry, and a file that is not
registered makes the hook read through nothing. -/
theorem run_not_reports : ∃ maps,
    registerAll sampleHost [readable] { snoopFiles := .empty, permissions := .empty } = .ok maps ∧
      ¬ Reports sampleInode [readable] maps [⟨.write, 42, 1⟩] ∧ ¬ Reports sampleInode [readable] maps [⟨.open, 7, 1⟩] := by
  have ended : (registerAll sampleHost [readable] { snoopFiles := .empty, permissions := .empty }).isOk = true := by
    decide +kernel
  obtain ⟨maps, registered⟩ := exists_registered ended
  have keyed := registered_keys sampleHost_lists registered
  refine ⟨maps, registered, fun reports => ?_, fun reports => ?_⟩
  · have quiet := quiet_of_reports keyed reports _ List.mem_cons_self
    exact quiet.2 ⟨opTypeRead, rfl, rfl⟩
  · obtain ⟨file, member, same⟩ := (quiet_of_reports keyed reports _ List.mem_cons_self).1
    cases List.mem_singleton.mp member
    have different : (7 : UInt64) ≠ narrow (sampleInode readable.file) := by decide +kernel
    exact different same

end GalaGopher.Ebpf.FileProbe
