import GalaGopher.Data.LastWrite
import GalaGopher.Data.Memo
import GalaGopher.Probe.SystemProcs.Whitelist
import GalaGopher.Probe.SystemProcs
import GalaGopher.Text.Scan
import Mathlib.Data.List.ReduceOption

namespace GalaGopher.Probe

open GalaGopher.Text GalaGopher.Imdb GalaGopher.Data

def probeTimesMax : Nat := 200

def procInProbeRange : UInt8 := 1

structure ProcKey where
  pid : UInt64
  startTime : UInt64
deriving DecidableEq

/-- `struct proc_hash_t`; only processes in the range get one. -/
structure Probed where
  key : ProcKey
  flag : UInt8
  info : ProcInfo
  inRange : flag = procInProbeRange

/-- An entry of the directory with what the files and the commands give for it
in one scan; nothing is what a command gives that cannot be started. -/
structure Shown where
  dName : Bytes
  startTime : Bytes
  comm : Bytes
  cmdline : Option Bytes
  fdCnt : Bytes
  io : Bytes
  smaps : Bytes
  stat : Bytes
  /-- A line that filled its buffer would leave it without a NUL.  What `wc -l`
  counts and the six numbers are shorter. -/
  short : ∀ output ∈ [fdCnt, stat], (cString (output.takeWhile (· ≠ newline))).length < lineBufLen - 1

def isProcSubdir (pid : Bytes) : Bool :=
  match pid with
  | [] => false
  | first :: _ => 49 ≤ first && first ≤ 57

/-- `atoll`, as it is stored. -/
def atoll (text : Bytes) : UInt64 := (Int64.ofInt (strtol text)).toUInt64

def getProcStartTime (output : Bytes) : CharArray procNameMax := doReadLine output (.ofText procNameMax [])

def Shown.key (shown : Shown) : ProcKey where
  pid := (atoi shown.dName).toInt64.toUInt64
  startTime := atoll (getProcStartTime shown.startTime).text

/-- `do_read_line` into a buffer of `LINE_BUF_LEN` bytes. -/
def readLine (output : Bytes) : Option Bytes :=
  if output = [] then none else some (doReadLine output (.ofText lineBufLen [])).text

def getProcFdcnt (output : Bytes) (info : ProcInfo) : Option ProcInfo :=
  (readLine output).map fun buffer => { info with fdCount := (atoi buffer).toUInt32 }

/-- The values of the lines, up to the first that has none. -/
def leadingValues (value : Bytes → Option UInt64) : Nat → List Bytes → List UInt64
  | 0, _ | _, [] => []
  | count + 1, line :: lines =>
      match value line with
      | none => []
      | some number => number :: leadingValues value count lines

/-- Each value goes to the field of its number. -/
def setAll (set : ProcInfo → UInt64 → Nat → ProcInfo) (values : List UInt64) (info : ProcInfo) : ProcInfo :=
  values.zipIdx.foldl (fun info value => set info value.1 value.2) info

def procIoMax : Nat := 7

def doSetProcIo (info : ProcInfo) (value : UInt64) : (index : Nat) → ProcInfo
  | 0 => { info with procRcharBytes := value }
  | 1 => { info with procWcharBytes := value }
  | 2 => { info with procSyscrCount := value.toUInt32 }
  | 3 => { info with procSyscwCount := value.toUInt32 }
  | 4 => { info with procReadBytes := value }
  | 5 => { info with procWriteBytes := value }
  | 6 => { info with procCancelledWriteBytes := value }
  | _ => info

/-- `"%*s %llu"` -/
def ioValue (line : Bytes) : Option UInt64 :=
  (scanWord line).bind fun rest => (scanLlu rest).map Prod.fst

def ioValues (output : Bytes) : List UInt64 := leadingValues ioValue procIoMax (fgetsStrings lineBufLen output)

def getProcIo (output : Bytes) (info : ProcInfo) : ProcInfo := setAll doSetProcIo (ioValues output) info

def procMssMax : Nat := 16

/-- The values of the others are not stored. -/
def doSetProcMss (info : ProcInfo) (value : UInt64) : (index : Nat) → ProcInfo
  | 1 => { info with procSharedClean := value }
  | 2 => { info with procSharedDirty := value }
  | 3 => { info with procPrivateClean := value }
  | 4 => { info with procPrivateDirty := value }
  | 5 => { info with procReferenced := value }
  | 7 => { info with procLazyfree := value }
  | 9 => { info with procSwap := value }
  | 14 => { info with procSwappss := value }
  | _ => info

/-- `"%*s %lu %*s"`, which fails only at the end of the line; what is not a
number leaves the value at zero. -/
def mssValue (line : Bytes) : Option UInt64 :=
  (scanWord line).bind fun rest =>
    if rest.dropWhile isSpace = [] then none else some (((scanLlu rest).map Prod.fst).getD 0)

def mssValues (output : Bytes) : List UInt64 := leadingValues mssValue procMssMax (fgetsStrings lineBufLen output)

def getProcMss (output : Bytes) (info : ProcInfo) : ProcInfo := setAll doSetProcMss (mssValues output) info

def procStatMax : Nat := 6

def doSetProcStat (info : ProcInfo) (value : UInt64) : (index : Nat) → ProcInfo
  | 0 => { info with procStatMinFlt := value }
  | 1 => { info with procStatMajFlt := value }
  | 2 => { info with procStatUtime := value }
  | 3 => { info with procStatStime := value }
  | 4 => { info with procStatVsize := value }
  | 5 => { info with procStatRss := value }
  | _ => info

def statValues (buffer : Bytes) : List UInt64 := ((strtok buffer 58).take procStatMax).map atoll

def getProcStat (output : Bytes) (info : ProcInfo) : Option ProcInfo :=
  (readLine output).map fun buffer => setAll doSetProcStat (statValues buffer) info

/-- What has been stored before a command gives no line stays. -/
def updateProcInfos (info : ProcInfo) (shown : Shown) : ProcInfo :=
  match getProcFdcnt shown.fdCnt info with
  | none => info
  | some info =>
      let info := getProcMss shown.smaps (getProcIo shown.io info)
      (getProcStat shown.stat info).getD info

/-- The table has each process under its key. -/
def hashFindProc (procmap : List (ProcKey × Probed)) (key : ProcKey) : Option Probed := Memo.find key procmap

def Probed.output (probed : Probed) : Bytes := outputProcInfos { pid := probed.key.pid, info := probed.info }

/-- The turn of the loop for a process that is not in the table. -/
def addProc (range : ProcRange) (procmap : List (ProcKey × Probed)) (shown : Shown) :
    Outcome (List (ProcKey × Probed) × Option Bytes) := do
  let comm := getProcComm shown.comm
  if checkProcProbeFlag range comm.text ≠ 1 then
    return (procmap, none)
  else
    let cmdline ← getProcCmdline shown.cmdline
    let l : Probed :=
      { key := shown.key, flag := procInProbeRange, info := updateProcInfos { comm, cmdline } shown, inRange := rfl }
    return (procmap ++ [(shown.key, l)], some l.output)

def probeProc (range : ProcRange) (procmap : List (ProcKey × Probed)) (shown : Shown) :
    Outcome (List (ProcKey × Probed) × Option Bytes) :=
  match hashFindProc procmap shown.key with
  | some p =>
      if p.flag = procInProbeRange then
        let p := { p with info := updateProcInfos p.info shown }
        .ok (Memo.replace shown.key p procmap, some p.output)
      else addProc range procmap shown
  | none => addProc range procmap shown

/-- The loop over the directory, with the lines printed. -/
def probeProcs (range : ProcRange) (procmap : List (ProcKey × Probed)) :
    List Shown → Outcome (List (ProcKey × Probed) × List Bytes)
  | [] => .ok (procmap, [])
  | shown :: rest =>
      if isProcSubdir shown.dName then do
        let (procmap, line) ← probeProc range procmap shown
        let (procmap, lines) ← probeProcs range procmap rest
        return (procmap, line.toList ++ lines)
      else probeProcs range procmap rest

structure Scanner where
  probedTimes : Nat := 0
  procmap : List (ProcKey × Probed) := []

/-- No directory is one that cannot be opened. -/
def systemProcProbe (range : ProcRange) (scanner : Scanner) (dir : Option (List Shown)) :
    Outcome (Scanner × List Bytes × Int32) :=
  let procmap := if scanner.probedTimes ≥ probeTimesMax then [] else scanner.procmap
  match dir with
  | none => .ok ({ scanner with procmap }, [], -1)
  | some entries => do
      let (procmap, lines) ← probeProcs range procmap entries
      return ({ probedTimes := scanner.probedTimes + 1, procmap }, lines, 0)

/-- What there is of each number in the files, by its place. -/
@[ext] structure Readings where
  fdCount : Option UInt32 := none
  io : Nat → Option UInt64 := fun _ => none
  mss : Nat → Option UInt64 := fun _ => none
  stat : Nat → Option UInt64 := fun _ => none

namespace Readings

/-- The counts with what was read in their places. -/
def fill (readings : Readings) (info : ProcInfo) : ProcInfo :=
  { info with
    fdCount := readings.fdCount.getD info.fdCount
    procRcharBytes := (readings.io 0).getD info.procRcharBytes
    procWcharBytes := (readings.io 1).getD info.procWcharBytes
    procSyscrCount := ((readings.io 2).map UInt64.toUInt32).getD info.procSyscrCount
    procSyscwCount := ((readings.io 3).map UInt64.toUInt32).getD info.procSyscwCount
    procReadBytes := (readings.io 4).getD info.procReadBytes
    procWriteBytes := (readings.io 5).getD info.procWriteBytes
    procCancelledWriteBytes := (readings.io 6).getD info.procCancelledWriteBytes
    procSharedClean := (readings.mss 1).getD info.procSharedClean
    procSharedDirty := (readings.mss 2).getD info.procSharedDirty
    procPrivateClean := (readings.mss 3).getD info.procPrivateClean
    procPrivateDirty := (readings.mss 4).getD info.procPrivateDirty
    procReferenced := (readings.mss 5).getD info.procReferenced
    procLazyfree := (readings.mss 7).getD info.procLazyfree
    procSwap := (readings.mss 9).getD info.procSwap
    procSwappss := (readings.mss 14).getD info.procSwappss
    procStatMinFlt := (readings.stat 0).getD info.procStatMinFlt
    procStatMajFlt := (readings.stat 1).getD info.procStatMajFlt
    procStatUtime := (readings.stat 2).getD info.procStatUtime
    procStatStime := (readings.stat 3).getD info.procStatStime
    procStatVsize := (readings.stat 4).getD info.procStatVsize
    procStatRss := (readings.stat 5).getD info.procStatRss }

/-- The later readings, and the earlier ones where there are none. -/
def or (later earlier : Readings) : Readings where
  fdCount := later.fdCount.or earlier.fdCount
  io number := (later.io number).or (earlier.io number)
  mss number := (later.mss number).or (earlier.mss number)
  stat number := (later.stat number).or (earlier.stat number)

theorem fill_fill (later earlier : Readings) (info : ProcInfo) :
    later.fill (earlier.fill info) = (later.or earlier).fill info := by
  simp only [fill, or, Option.getD_or, Option.map_or]

/-- One number of a file. -/
def single (number : Nat) (value : UInt64) (place : Nat) : Option UInt64 := if place = number then some value else none

end Readings

open Readings (single)

theorem doSetProcIo_eq (info : ProcInfo) (value : UInt64) (number : Nat) :
    doSetProcIo info value number = Readings.fill { io := single number value } info := by
  rcases number with _ | _ | _ | _ | _ | _ | _ | number <;> rfl

theorem doSetProcMss_eq (info : ProcInfo) (value : UInt64) (number : Nat) :
    doSetProcMss info value number = Readings.fill { mss := single number value } info := by
  rcases number with _ | _ | _ | _ | _ | _ | _ | _ | _ | _ | _ | _ | _ | _ | _ | number <;> rfl

theorem doSetProcStat_eq (info : ProcInfo) (value : UInt64) (number : Nat) :
    doSetProcStat info value number = Readings.fill { stat := single number value } info := by
  rcases number with _ | _ | _ | _ | _ | _ | number <;> rfl

/-- Values that are stored one by one are all found in their places. -/
theorem setAll_eq {set : ProcInfo → UInt64 → Nat → ProcInfo} (file : (Nat → Option UInt64) → Readings)
    (one : ∀ info value number, set info value number = (file (single number value)).fill info)
    (both : ∀ later earlier, (file later).or (file earlier) = file fun place => (later place).or (earlier place))
    (nothing : file (fun _ => none) = {}) (values : List UInt64) (info : ProcInfo) :
    setAll set values info = (file fun place => values[place]?).fill info := by
  suffices each : ∀ start info, (values.zipIdx start).foldl (fun info value => set info value.1 value.2) info =
      (file fun place => if start ≤ place then values[place - start]? else none).fill info by
    simpa [setAll] using each 0 info
  induction values with
  | nil =>
      intro start info
      simp only [List.getElem?_nil, ite_self, nothing]
      rfl
  | cons value rest ih =>
      intro start info
      rw [List.zipIdx_cons, List.foldl_cons, ih, one, Readings.fill_fill, both]
      congr 2
      funext place
      rw [single]
      by_cases here : place = start
      · subst place
        rw [if_neg (by omega), if_pos rfl, if_pos (Nat.le_refl _), Nat.sub_self]
        rfl
      · rw [if_neg here, Option.or_none]
        by_cases before : start + 1 ≤ place
        · rw [if_pos before, if_pos (by omega), show place - start = place - (start + 1) + 1 by omega]
          rfl
        · rw [if_neg before, if_neg (by omega)]

namespace Shown

/-- Where the descriptors cannot be counted, nothing else is read. -/
def readings (shown : Shown) : Readings :=
  match readLine shown.fdCnt with
  | none => {}
  | some buffer =>
      { fdCount := some (atoi buffer).toUInt32
        io := fun place => (ioValues shown.io)[place]?
        mss := fun place => (mssValues shown.smaps)[place]?
        stat := fun place => (readLine shown.stat).bind fun buffer => (statValues buffer)[place]? }

end Shown

theorem updateProcInfos_eq (info : ProcInfo) (shown : Shown) :
    updateProcInfos info shown = shown.readings.fill info := by
  have io := fun info => setAll_eq (fun io => { io }) doSetProcIo_eq (fun _ _ => rfl) rfl (ioValues shown.io) info
  have mss := fun info => setAll_eq (fun mss => { mss }) doSetProcMss_eq (fun _ _ => rfl) rfl (mssValues shown.smaps) info
  have stat := fun values info => setAll_eq (fun stat => { stat }) doSetProcStat_eq (fun _ _ => rfl) rfl values info
  rw [updateProcInfos, getProcFdcnt, Shown.readings]
  cases readLine shown.fdCnt with
  | none => rfl
  | some buffer =>
      have counted : { info with fdCount := (atoi buffer).toUInt32 } =
          Readings.fill { fdCount := some (atoi buffer).toUInt32 } info := rfl
      simp only [Option.map_some, counted, getProcIo, getProcMss, getProcStat, io, mss, Readings.fill_fill]
      cases readLine shown.stat with
      | none => exact congrArg (Readings.fill · info) (by simp [Readings.or])
      | some line =>
          simp only [Option.map_some, stat, Option.getD_some, Readings.fill_fill]
          exact congrArg (Readings.fill · info) (by simp [Readings.or])

/-- The last of the readings in each place. -/
def lastReadings (shown : List Shown) : Readings where
  fdCount := lastWrite (fun shown => shown.readings.fdCount) shown
  io place := lastWrite (fun shown => shown.readings.io place) shown
  mss place := lastWrite (fun shown => shown.readings.mss place) shown
  stat place := lastWrite (fun shown => shown.readings.stat place) shown

theorem lastReadings_cons (first : Shown) (rest : List Shown) :
    lastReadings (first :: rest) = (lastReadings rest).or first.readings := by
  simp only [lastReadings, lastWrite_cons]
  rfl

theorem foldl_updateProcInfos (shown : List Shown) (info : ProcInfo) :
    shown.foldl updateProcInfos info = (lastReadings shown).fill info := by
  induction shown generalizing info with
  | nil => rfl
  | cons first rest ih =>
      rw [List.foldl_cons, ih, updateProcInfos_eq, Readings.fill_fill, lastReadings_cons]

/-- Whether the name of the process is in the range. -/
def Shown.named (range : ProcRange) (shown : Shown) : Bool := checkProcProbeFlag range (getProcComm shown.comm).text = 1

/-- A process with the names it had where it first was in the range, and the
last of its counts that could be read from then on. -/
def account (range : ProcRange) (met : List Shown) : Outcome (Option Probed) :=
  match met.dropWhile fun shown => !shown.named range with
  | [] => .ok none
  | first :: later => do
      let cmdline ← getProcCmdline first.cmdline
      let info := (lastReadings (first :: later)).fill { comm := getProcComm first.comm, cmdline }
      return some { key := first.key, flag := procInProbeRange, info, inRange := rfl }

/-- The lines for processes, which were met before as `earlier` has them. -/
def tell (range : ProcRange) (earlier : List Shown) : List Shown → Outcome (List Bytes)
  | [] => .ok []
  | shown :: rest => do
      let told ← account range ((earlier ++ [shown]).filter fun other => other.key = shown.key)
      let lines ← tell range (earlier ++ [shown]) rest
      return (told.map Probed.output).toList ++ lines

/-- The processes among the entries of a directory. -/
def processes (entries : List Shown) : List Shown := entries.filter fun shown => isProcSubdir shown.dName

/-- What the table is made of: all processes of the scans so far, or none after
too many of them. -/
def remembered (scans : List (Option (List Shown))) : List Shown :=
  if scans.reduceOption.length ≥ probeTimesMax then [] else processes scans.reduceOption.flatten

def procMemo (range : ProcRange) : Memo Shown ProcKey Probed Fault where
  key := Shown.key
  begins shown :=
    if shown.named range then
      (getProcCmdline shown.cmdline).map fun cmdline =>
        some
          { key := shown.key
            flag := procInProbeRange
            info := updateProcInfos { comm := getProcComm shown.comm, cmdline } shown
            inRange := rfl }
    else .ok none
  goesOn probed shown := { probed with info := updateProcInfos probed.info shown }

theorem processes_cons (shown : Shown) (rest : List Shown) :
    processes (shown :: rest) = if isProcSubdir shown.dName then shown :: processes rest else processes rest :=
  List.filter_cons

variable {range : ProcRange} {procmap : List (ProcKey × Probed)}

theorem addProc_eq (shown : Shown) :
    addProc range procmap shown = ((procMemo range).begins shown).map fun
      | none => (procmap, none)
      | some probed => (procmap ++ [(shown.key, probed)], some probed.output) := by
  simp only [addProc, procMemo, Shown.named]
  by_cases inRange : checkProcProbeFlag range (getProcComm shown.comm).text = 1
  · simp only [inRange, ne_eq, not_true_eq_false, if_false, decide_true, if_true]
    cases getProcCmdline shown.cmdline <;> rfl
  · simp only [inRange, ne_eq, not_false_eq_true, if_true, decide_false, Bool.false_eq_true, if_false]
    rfl

/-- A turn of the loop is a turn of the memory, which prints what it gives. -/
theorem probeProc_eq (shown : Shown) :
    probeProc range procmap shown = ((procMemo range).turn procmap shown).map fun turned =>
      (turned.1, turned.2.map Probed.output) := by
  have key : (procMemo range).key shown = shown.key := rfl
  rw [probeProc, Memo.turn, hashFindProc, key]
  cases Memo.find shown.key procmap with
  | some p =>
      dsimp only
      rw [if_pos p.inRange]
      rfl
  | none =>
      dsimp only
      rw [addProc_eq]
      cases (procMemo range).begins shown with
      | error fault => rfl
      | ok first => cases first <;> rfl

theorem probeProcs_eq (entries : List Shown) :
    probeProcs range procmap entries = ((procMemo range).pass procmap (processes entries)).map fun passed =>
      (passed.1, passed.2.flatMap fun probed => (probed.map Probed.output).toList) := by
  induction entries generalizing procmap with
  | nil => rfl
  | cons shown rest ih =>
      rw [probeProcs, processes_cons]
      by_cases subdir : isProcSubdir shown.dName
      · rw [if_pos subdir, if_pos subdir, Memo.pass_cons, probeProc_eq]
        cases (procMemo range).turn procmap shown with
        | error fault => rfl
        | ok turned =>
            change (probeProcs range turned.1 rest >>= _) = (((procMemo range).pass turned.1 (processes rest)).map _).map _
            rw [ih]
            cases (procMemo range).pass turned.1 (processes rest) <;> rfl
      · rw [if_neg subdir, if_neg subdir]
        exact ih

theorem foldlM_goesOn (probed : Probed) (shown : List Shown) :
    shown.foldlM (procMemo range).evolve (some probed) =
      .ok (some { probed with info := shown.foldl updateProcInfos probed.info }) := by
  induction shown generalizing probed with
  | nil => rfl
  | cons first rest ih =>
      rw [List.foldlM_cons]
      exact ih _

/-- What the memory makes of the readings of one process. -/
theorem foldlM_evolve (met : List Shown) : met.foldlM (procMemo range).evolve none = account range met := by
  induction met with
  | nil => rfl
  | cons first rest ih =>
      rw [List.foldlM_cons, account]
      by_cases named : first.named range
      · rw [List.dropWhile_cons_of_neg (by simp [named])]
        simp only [Memo.evolve, procMemo, named, if_true]
        cases getProcCmdline first.cmdline with
        | error fault => rfl
        | ok cmdline =>
            refine (foldlM_goesOn _ rest).trans ?_
            dsimp only
            rw [← List.foldl_cons, foldl_updateProcInfos]
            rfl
      · rw [List.dropWhile_cons_of_pos (by simp [named])]
        simp only [Memo.evolve, procMemo, named, Bool.false_eq_true, if_false]
        exact ih

theorem tell_eq (earlier more : List Shown) :
    ((procMemo range).values earlier more).map
        (fun values => values.flatMap fun probed => (probed.map Probed.output).toList) =
      tell range earlier more := by
  induction more generalizing earlier with
  | nil => rfl
  | cons shown rest ih =>
      rw [Memo.values, tell, ← ih, Memo.value, foldlM_evolve]
      change (account range ((earlier ++ [shown]).filter fun other => other.key = shown.key) >>= _).map _ = _
      cases account range ((earlier ++ [shown]).filter fun other => other.key = shown.key) with
      | error fault => rfl
      | ok told =>
          change ((procMemo range).values (earlier ++ [shown]) rest >>= _).map _ = _
          cases (procMemo range).values (earlier ++ [shown]) rest <;> rfl

/-- The scans of a run, each from what the ones before it left. -/
def scanAll (range : ProcRange) (scans : List (Option (List Shown))) : Outcome Scanner :=
  scans.foldlM (fun scanner dir => (systemProcProbe range scanner dir).map Prod.fst) {}

/-- What the next scan begins with. -/
def Scanner.begins (scanner : Scanner) : List (ProcKey × Probed) :=
  if scanner.probedTimes ≥ probeTimesMax then [] else scanner.procmap

/-- The table is what the scans so far tell. -/
structure Tells (range : ProcRange) (scans : List (Option (List Shown))) (scanner : Scanner) : Prop where
  times : scanner.probedTimes = scans.reduceOption.length
  holds : (procMemo range).Holds scanner.begins (remembered scans)

theorem start_tells : Tells range [] {} where
  times := rfl
  holds := Memo.nil_holds

theorem remembered_none (scans : List (Option (List Shown))) : remembered (scans ++ [none]) = remembered scans := by
  rw [remembered, List.reduceOption_append, List.reduceOption_singleton, remembered, Option.toList_none, List.append_nil]

theorem remembered_some (scans : List (Option (List Shown))) (entries : List Shown) :
    remembered (scans ++ [some entries]) =
      if scans.reduceOption.length + 1 ≥ probeTimesMax then [] else remembered scans ++ processes entries := by
  rw [remembered, List.reduceOption_append, List.reduceOption_singleton, Option.toList_some, List.length_append,
    List.length_singleton]
  by_cases full : scans.reduceOption.length + 1 ≥ probeTimesMax
  · rw [if_pos full, if_pos full]
  · rw [if_neg full, if_neg full, remembered, if_neg (by omega), List.flatten_append, processes, processes,
      List.filter_append, List.flatten_singleton]
    rfl

theorem Tells.scan {scans : List (Option (List Shown))} {scanner after : Scanner} {dir : Option (List Shown)}
    {printed : List Bytes × Int32} (tells : Tells range scans scanner)
    (scanned : systemProcProbe range scanner dir = .ok (after, printed)) : Tells range (scans ++ [dir]) after := by
  cases dir with
  | none =>
      cases scanned
      refine ⟨?_, ?_⟩
      · rw [List.reduceOption_append, List.reduceOption_singleton, Option.toList_none, List.append_nil]
        exact tells.times
      · rw [remembered_none]
        have begins : Scanner.begins { scanner with procmap := scanner.begins } = scanner.begins := by
          rw [Scanner.begins]
          by_cases full : scanner.probedTimes ≥ probeTimesMax
          · rw [if_pos full, Scanner.begins, if_pos full]
          · rw [if_neg full]
        exact begins ▸ tells.holds
  | some entries =>
      change (probeProcs range scanner.begins entries >>= _) = _ at scanned
      rw [probeProcs_eq] at scanned
      cases passed : (procMemo range).pass scanner.begins (processes entries) with
      | error fault =>
          rw [passed] at scanned
          cases scanned
      | ok result =>
          rw [passed] at scanned
          cases scanned
          refine ⟨?_, ?_⟩
          · rw [List.reduceOption_append, List.reduceOption_singleton, Option.toList_some, List.length_append,
              ← tells.times]
            rfl
          · rw [remembered_some, Scanner.begins, ← tells.times]
            dsimp only
            split
            · exact Memo.nil_holds
            · exact tells.holds.pass passed

theorem scanAll_tells {scans : List (Option (List Shown))} {scanner : Scanner}
    (scanned : scanAll range scans = .ok scanner) : Tells range scans scanner := by
  induction scans using List.reverseRecOn generalizing scanner with
  | nil =>
      cases scanned
      exact start_tells
  | append_singleton scans dir ih =>
      rw [scanAll, List.foldlM_append] at scanned
      cases before : scanAll range scans with
      | error fault =>
          rw [scanAll] at before
          rw [before] at scanned
          cases scanned
      | ok between =>
          have tells := ih before
          rw [scanAll] at before
          rw [before] at scanned
          change (systemProcProbe range between dir).map Prod.fst >>= pure = _ at scanned
          rw [bind_pure] at scanned
          cases last : systemProcProbe range between dir with
          | error fault =>
              rw [last] at scanned
              cases scanned
          | ok result =>
              rw [last] at scanned
              cases scanned
              exact tells.scan last

/-- After any scans, the next one tells of each process what the readings of it
make, from the first that shows it in the range, and of the names only that. -/
theorem scans_tell {scans : List (Option (List Shown))} {scanner : Scanner} (scanned : scanAll range scans = .ok scanner)
    (entries : List Shown) :
    (systemProcProbe range scanner (some entries)).map (fun result => result.2.1) =
      tell range (remembered scans) (processes entries) := by
  rw [← tell_eq, ← (scanAll_tells scanned).holds.pass_values]
  change (probeProcs range scanner.begins entries >>= _).map _ = _
  rw [probeProcs_eq]
  cases (procMemo range).pass scanner.begins (processes entries) <;> rfl

def server : Shown where
  dName := ascii "7"
  startTime := ascii "100\n"
  comm := ascii "redis-server\n"
  cmdline := some (ascii "redis-server" ++ [0])
  fdCnt := ascii "5\n"
  io := ascii "rchar: 10\nwchar: 20\n"
  smaps := []
  stat := ascii "1:2:3:4:5:6\n"
  short := by decide

/-- The process under a new name, with its descriptors out of reach. -/
def renamed : Shown :=
  { server with comm := ascii "sh\n", fdCnt := [], io := ascii "rchar: 11\n", short := by decide }

/-- The line of the second scan has the name and the counts of the first. -/
theorem scans_tell_renamed : ∃ scanner, scanAll procRange [some [server]] = .ok scanner ∧
    (systemProcProbe procRange scanner (some [renamed])).map (fun result => result.2.1) =
      tell procRange (remembered [some [server]]) (processes [renamed]) ∧
    tell procRange (remembered [some [server]]) (processes [renamed]) =
      .ok [ascii "|system_proc|7|redis-server|redis-server|5|10|20|0|0|0|0|0|0|0|0|0|0|0|0|0|1|2|3|4|5|6|\n"] := by
  cases scanned : scanAll procRange [some [server]] with
  | error fault =>
      have ran : (scanAll procRange [some [server]]).toOption.isSome := by decide +kernel
      rw [scanned] at ran
      cases ran
  | ok scanner => exact ⟨scanner, rfl, scans_tell scanned [renamed], by decide +kernel⟩

end GalaGopher.Probe
