import GalaGopher.Ingress.Decode
import GalaGopher.Meta.Reach

namespace GalaGopher.Probe

open GalaGopher.Text GalaGopher.Imdb GalaGopher.Ingress GalaGopher.Meta

def metricsProcName : Bytes := ascii "system_proc"

def procNameMax : Nat := 64

def lineBufLen : Nat := 128

structure ProcInfo where
  comm : CharArray procNameMax := .ofText procNameMax []
  cmdline : Option Bytes := none
  fdCount : UInt32 := 0
  procSyscrCount : UInt32 := 0
  procSyscwCount : UInt32 := 0
  procRcharBytes : UInt64 := 0
  procWcharBytes : UInt64 := 0
  procReadBytes : UInt64 := 0
  procWriteBytes : UInt64 := 0
  procCancelledWriteBytes : UInt64 := 0
  procSharedDirty : UInt64 := 0
  procSharedClean : UInt64 := 0
  procPrivateDirty : UInt64 := 0
  procPrivateClean : UInt64 := 0
  procReferenced : UInt64 := 0
  procLazyfree : UInt64 := 0
  procSwap : UInt64 := 0
  procSwappss : UInt64 := 0
  procStatMinFlt : UInt64 := 0
  procStatMajFlt : UInt64 := 0
  procStatUtime : UInt64 := 0
  procStatStime : UInt64 := 0
  procStatVsize : UInt64 := 0
  procStatRss : UInt64 := 0

structure ProcHash where
  pid : UInt64
  info : ProcInfo

/-- `do_read_line`: the first line of a command's output, or the buffer as it
was where there is none. -/
def doReadLine {size : Nat} (output : Bytes) (buf : CharArray size) : CharArray size :=
  if output = [] then buf
  else .ofText size ((output.take (lineBufLen - 1)).takeWhile fun byte => byte ≠ newline && byte ≠ 0)

def getProcComm (output : Bytes) : CharArray procNameMax := doReadLine output (.ofText procNameMax [])

def blank : UInt8 := 32

/-- `EOF`, once stored in a `char` -/
def endOfFile : UInt8 := 255

/-- `line` has the places written so far.  A NUL is stored as a blank; the end
of the file, or a byte that looks like it, makes a NUL of a blank before it.
At the first place the one before it lies outside the array. -/
def storeChar (line : Bytes) (byte : UInt8) : Outcome Bytes :=
  if byte = 0 then .ok (line ++ [blank])
  else if byte = endOfFile then
    match line.getLast? with
    | none => .error .undefined
    | some last => if last = blank then .ok (line.dropLast ++ [0, byte]) else .ok (line ++ [byte])
  else .ok (line ++ [byte])

/-- The loop over `fgetc`.  `feof` holds only after the end has been read. -/
def readCmdline : Bytes → (line : Bytes) → Outcome Bytes
  | [], line => if line.length ≥ lineBufLen - 1 then .ok (line ++ [0]) else storeChar line endOfFile
  | byte :: rest, line =>
      if line.length ≥ lineBufLen - 1 then .ok (line ++ [0])
      else do
        let line ← storeChar line byte
        readCmdline rest line

/-- `strncpy` into a new buffer of `lineBufLen` bytes, and the string found
there.  Past the places written, neither array has a value to read. -/
def copyCmdline (line : Bytes) : Outcome Bytes :=
  let text := line.takeWhile (· ≠ 0)
  if text.length < line.length ∧ text.length < lineBufLen - 1 then .ok text else .error .undefined

/-- No file is one that cannot be opened. -/
def getProcCmdline (file : Option Bytes) : Outcome (Option Bytes) :=
  match file with
  | none => .ok none
  | some bytes => do
      let line ← readCmdline bytes []
      if line.length ≤ 1 then
        return none
      else
        let text ← copyCmdline line
        return some text

/-- `%u`, `%lu` and `%llu` -/
def unsigned (value : Nat) : Bytes := ascii (toString value)

/-- The arguments of `output_proc_infos`, as they are printed. -/
def procValues (oneProc : ProcHash) : List Bytes :=
  [unsigned oneProc.pid.toNat,
   oneProc.info.comm.text,
   oneProc.info.cmdline.getD [],
   unsigned oneProc.info.fdCount.toNat,
   unsigned oneProc.info.procRcharBytes.toNat,
   unsigned oneProc.info.procWcharBytes.toNat,
   unsigned oneProc.info.procSyscrCount.toNat,
   unsigned oneProc.info.procSyscwCount.toNat,
   unsigned oneProc.info.procReadBytes.toNat,
   unsigned oneProc.info.procWriteBytes.toNat,
   unsigned oneProc.info.procCancelledWriteBytes.toNat,
   unsigned oneProc.info.procSharedClean.toNat,
   unsigned oneProc.info.procSharedDirty.toNat,
   unsigned oneProc.info.procPrivateClean.toNat,
   unsigned oneProc.info.procPrivateDirty.toNat,
   unsigned oneProc.info.procReferenced.toNat,
   unsigned oneProc.info.procLazyfree.toNat,
   unsigned oneProc.info.procSwap.toNat,
   unsigned oneProc.info.procSwappss.toNat,
   unsigned oneProc.info.procStatMinFlt.toNat,
   unsigned oneProc.info.procStatMajFlt.toNat,
   unsigned oneProc.info.procStatUtime.toNat,
   unsigned oneProc.info.procStatStime.toNat,
   unsigned oneProc.info.procStatVsize.toNat,
   unsigned oneProc.info.procStatRss.toNat]

def outputProcInfos (oneProc : ProcHash) : Bytes := probeLine metricsProcName (procValues oneProc) true

/-- A process found for the first time in `system_proc_probe`.  `counts` has
what `update_proc_infos` reads of it. -/
def newProc (pid : UInt64) (comm : Bytes) (cmdline : Option Bytes) (counts : ProcInfo) : Outcome ProcHash := do
  let cmdline ← getProcCmdline cmdline
  return { pid, info := { counts with comm := getProcComm comm, cmdline } }

def procField (type name description : String) : Field where
  description := .ofText 256 (ascii description)
  type := .ofText 64 (ascii type)
  name := .ofText 64 (ascii name)

def systemProcMeasurement : Measurement where
  name := .ofText 64 metricsProcName
  fields :=
    [procField "key" "pid" "id of process",
     procField "label" "comm" "comm of the process",
     procField "label" "cmdline" "cmdline of the process",
     procField "gauge" "fd_count" "fd counts of the process",
     procField "counter" "proc_rchar_bytes" "bytes of proc system call I/O read operation",
     procField "counter" "proc_wchar_bytes" "bytes of proc system call I/O write operation",
     procField "counter" "proc_syscr_count" "count of proc system call I/O read operation",
     procField "counter" "proc_syscw_count" "count of proc system call I/O write operation",
     procField "counter" "proc_read_bytes" "bytes of proc read operation from disk",
     procField "counter" "proc_write_bytes" "bytes written to disk by proc (expected)",
     procField "counter" "proc_cancelled_write_bytes" "bytes written to disk cancelled by proc",
     procField "counter" "proc_shared_clean_size" "size of clean pages in shared memory(kB)",
     procField "counter" "proc_shared_dirty_size" "size of dirty pages in shared memory(kB)",
     procField "counter" "proc_private_clean_size" "size of clean pages in private memory(kB)",
     procField "counter" "proc_private_dirty_size" "size of dirty pages in private memory(kB)",
     procField "counter" "proc_referenced_size" "size of memory currently marked as referenced(kB)",
     procField "counter" "proc_lazyfree_size" "size of memory not immediately freed(kB)",
     procField "counter" "proc_swap_data_size" "size of data present in proc swap partition(kB)",
     procField "counter" "proc_swap_data_pss_size" "size of proc swap physical partition(kB)",
     procField "counter" "proc_utime_jiffies" "time of proc runs in userspace",
     procField "counter" "proc_stime_jiffies" "time of proc runs in kernelspace",
     procField "counter" "proc_minor_pagefault_count" "count of proc cirtical pagefault",
     procField "counter" "proc_major_pagefault_count" "count of proc weak pagefault",
     procField "counter" "proc_vm_size" "byte of proc's virtual address space(B)",
     procField "counter" "proc_pm_size" "size of proc's physical address space(page)"]
  bounded := by decide

def systemProcMeta : Record where
  key := []
  updateTime := 0
  metricsCapacity := systemProcMeasurement.fields.length
  metrics := systemProcMeasurement.fields.map fun field =>
    .printed field.name.text field.description.text field.type.text
  within := Nat.le_of_eq (List.length_map _)

def systemProcTable (capacity : Nat) : Table :=
  { tableCreate metricsProcName capacity with metaRecord := some systemProcMeta, recordKeySize := 512 }

/-- A text that fits and has nothing to expand. -/
def PlainText (size : Nat) (characters : List Char) : Prop :=
  characters.length ≤ size ∧ percent ∉ characters.map fun character => UInt8.ofNat character.toNat

instance (size : Nat) (characters : List Char) : Decidable (PlainText size characters) :=
  inferInstanceAs (Decidable (_ ∧ _))

section PlainText

variable {size bound : Nat} {characters : List Char} (plain : PlainText bound characters)
include plain

theorem PlainText.free : percent ∉ ascii (String.ofList characters) := by
  rw [ascii_ofList]
  exact plain.2

theorem PlainText.length : (ascii (String.ofList characters)).length ≤ bound := by
  rw [ascii_ofList, List.length_map]
  exact plain.1

theorem PlainText.formattable : Formattable (ascii (String.ofList characters)) :=
  Formattable.of_percent_free plain.free

theorem PlainText.ofText (fits : bound ≤ size - 1) :
    (CharArray.ofText size (ascii (String.ofList characters))).text = ascii (String.ofList characters) :=
  List.take_of_length_le (Nat.le_trans plain.length fits)

theorem PlainText.printed (fits : bound ≤ size - 1) :
    (CharArray.ofText size (expanded (ascii (String.ofList characters)))).text =
      ascii (String.ofList characters) :=
  (take_expanded_eq_self_iff plain.formattable (Nat.le_trans plain.length fits)).mpr plain.free

end PlainText

/-- A field whose texts print as they are, and its metric. -/
structure PlainField (field : Field) (name : Bytes) : Prop where
  printable : PrintableField field
  plain : Metric.Plain (fieldMetric field)
  named : (fieldMetric field).name.text = name

theorem procField_plain {type name description : String} {typeText nameText text : List Char}
    (types : type = String.ofList typeText) (names : name = String.ofList nameText)
    (descriptions : description = String.ofList text)
    (plain : PlainText 31 typeText ∧ PlainText 31 nameText ∧ PlainText 255 text) :
    PlainField (procField type name description) (ascii name) := by
  subst types names descriptions
  obtain ⟨plainType, plainName, plainText⟩ := plain
  have typeKept := @PlainText.ofText 64 31 typeText plainType (by decide)
  have nameKept := @PlainText.ofText 64 31 nameText plainName (by decide)
  have textKept := @PlainText.ofText 256 255 text plainText (by decide)
  refine ⟨?_, ?_, ?_⟩
  · rw [PrintableField, procField, typeKept, nameKept, textKept]
    exact ⟨plainName.formattable, plainText.formattable, plainType.formattable⟩
  · rw [Metric.Plain, fieldMetric, Metric.printed, procField, typeKept, nameKept, textKept,
      plainType.printed (by decide), plainName.printed (by decide), plainText.printed (by decide)]
    exact ⟨plainName.free, plainType.free, plainText.formattable⟩
  · rw [fieldMetric, Metric.printed, procField, nameKept]
    exact plainName.printed (by decide)

/-- The names of the fields, in the order of their columns. -/
def systemProcNames : List Bytes :=
  [ascii "pid", ascii "comm", ascii "cmdline", ascii "fd_count", ascii "proc_rchar_bytes",
   ascii "proc_wchar_bytes", ascii "proc_syscr_count", ascii "proc_syscw_count", ascii "proc_read_bytes",
   ascii "proc_write_bytes", ascii "proc_cancelled_write_bytes", ascii "proc_shared_clean_size",
   ascii "proc_shared_dirty_size", ascii "proc_private_clean_size", ascii "proc_private_dirty_size",
   ascii "proc_referenced_size", ascii "proc_lazyfree_size", ascii "proc_swap_data_size",
   ascii "proc_swap_data_pss_size", ascii "proc_utime_jiffies", ascii "proc_stime_jiffies",
   ascii "proc_minor_pagefault_count", ascii "proc_major_pagefault_count", ascii "proc_vm_size",
   ascii "proc_pm_size"]

theorem systemProcMeasurement_plain : List.Forall₂ PlainField systemProcMeasurement.fields systemProcNames := by
  simp only [systemProcMeasurement, systemProcNames, List.forall₂_cons]
  repeat' apply And.intro
  all_goals first | exact .nil | exact procField_plain rfl rfl rfl (by decide +kernel)

theorem systemProcMeasurement_printable : Printable systemProcMeasurement := by
  have each : List.Forall₂ (fun field name => PrintableField field ∧ PlainField field name)
      systemProcMeasurement.fields systemProcNames :=
    systemProcMeasurement_plain.imp fun _ _ field => ⟨field.printable, field⟩
  exact ((List.forall₂_and_left _ _).mp each).1

theorem systemProcMeta_plain : ∀ field ∈ systemProcMeta.metrics, Metric.Plain field := by
  have each : List.Forall₂ (fun field name => Metric.Plain (fieldMetric field) ∧ PlainField field name)
      systemProcMeasurement.fields systemProcNames :=
    systemProcMeasurement_plain.imp fun _ _ field => ⟨field.plain, field⟩
  exact List.forall_mem_map.mpr ((List.forall₂_and_left _ _).mp each).1

theorem systemProcMeta_names : systemProcMeta.metrics.map (fun field => field.name.text) = systemProcNames := by
  have names : List.Forall₂ (fun field name => (fieldMetric field).name.text = name)
      systemProcMeasurement.fields systemProcNames := systemProcMeasurement_plain.imp fun _ _ field => field.named
  rw [← List.forall₂_eq_eq_eq, systemProcMeta, List.map_map, List.forall₂_map_left_iff]
  exact names

theorem systemProcTable_load (capacity : Nat) :
    imdbMgrTableLoad (tableCreate metricsProcName capacity) systemProcMeasurement = .ok (systemProcTable capacity) := by
  have name : systemProcMeasurement.name.text = metricsProcName := by decide +kernel
  have keys : systemProcMeasurement.fields.countP (fun field => field.type.text = metricTypeKey) = 1 := by
    decide +kernel
  have load := imdbMgrTableLoad_eq capacity systemProcMeasurement
  have filled : systemProcMeasurement.fields ≠ [] := List.cons_ne_nil _ _
  rw [if_neg filled, if_pos systemProcMeasurement_printable, measurementTable, keys, name] at load
  exact load

theorem systemProcTable_loaded (capacity : Nat) : (systemProcTable capacity).Loaded systemProcMeta := by
  obtain ⟨metaRecord, loaded⟩ := imdbMgrTableLoad_loaded (systemProcTable_load capacity)
  have same : some systemProcMeta = some metaRecord := loaded.described
  cases same
  exact loaded

end GalaGopher.Probe
