import GalaGopher.Ingress.Columns
import GalaGopher.Probe.SystemProcs.CommandLine
import GalaGopher.Text.Printed

namespace GalaGopher.Probe

open GalaGopher.Text GalaGopher.Imdb GalaGopher.Ingress

/-- The name on the first line of `comm`, as far as the buffer holds it. -/
def firstLine (output : Bytes) : Bytes :=
  (output.takeWhile fun byte => byte ≠ newline && byte ≠ 0).take (procNameMax - 1)

/-- The fields of a process with the values that belong in them. -/
def ownColumns (pid : UInt64) (comm cmdline : Bytes) (counts : ProcInfo) : List (Bytes × Bytes) :=
  [(ascii "pid", unsigned pid.toNat),
   (ascii "comm", firstLine comm),
   (ascii "cmdline", commandLine cmdline),
   (ascii "fd_count", unsigned counts.fdCount.toNat),
   (ascii "proc_rchar_bytes", unsigned counts.procRcharBytes.toNat),
   (ascii "proc_wchar_bytes", unsigned counts.procWcharBytes.toNat),
   (ascii "proc_syscr_count", unsigned counts.procSyscrCount.toNat),
   (ascii "proc_syscw_count", unsigned counts.procSyscwCount.toNat),
   (ascii "proc_read_bytes", unsigned counts.procReadBytes.toNat),
   (ascii "proc_write_bytes", unsigned counts.procWriteBytes.toNat),
   (ascii "proc_cancelled_write_bytes", unsigned counts.procCancelledWriteBytes.toNat),
   (ascii "proc_shared_clean_size", unsigned counts.procSharedClean.toNat),
   (ascii "proc_shared_dirty_size", unsigned counts.procSharedDirty.toNat),
   (ascii "proc_private_clean_size", unsigned counts.procPrivateClean.toNat),
   (ascii "proc_private_dirty_size", unsigned counts.procPrivateDirty.toNat),
   (ascii "proc_referenced_size", unsigned counts.procReferenced.toNat),
   (ascii "proc_lazyfree_size", unsigned counts.procLazyfree.toNat),
   (ascii "proc_swap_data_size", unsigned counts.procSwap.toNat),
   (ascii "proc_swap_data_pss_size", unsigned counts.procSwappss.toNat),
   (ascii "proc_utime_jiffies", unsigned counts.procStatUtime.toNat),
   (ascii "proc_stime_jiffies", unsigned counts.procStatStime.toNat),
   (ascii "proc_minor_pagefault_count", unsigned counts.procStatMinFlt.toNat),
   (ascii "proc_major_pagefault_count", unsigned counts.procStatMajFlt.toNat),
   (ascii "proc_vm_size", unsigned counts.procStatVsize.toNat),
   (ascii "proc_pm_size", unsigned counts.procStatRss.toNat)]

/-- The line of a process is stored as its own columns. -/
def KeepsColumns (pid : UInt64) (comm cmdline : Bytes) (counts : ProcInfo) : Prop :=
  ∃ proc content fresh record, newProc pid comm (some cmdline) counts = .ok proc ∧
    getTableNameAndContent (outputProcInfos proc) 32 = some (metricsProcName, content) ∧
    recordCreateWithKey systemProcMeta.metricsCapacity 512 = some fresh ∧
    dataBaseMgrParseContent systemProcMeta fresh content true = .ok record ∧
    record.metrics.map (fun metric => (metric.name.text, metric.val.text)) = ownColumns pid comm cmdline counts

/-- What keeps the columns of a process in their places. -/
structure Regular (comm cmdline : Bytes) (counts : ProcInfo) : Prop where
  named : firstLine comm ≠ []
  nameFree : bar ∉ firstLine comm ∧ percent ∉ firstLine comm
  closed : cmdline.getLast? = some 0
  size : 2 ≤ cmdline.length ∧ cmdline.length ≤ 126
  clean : Clean cmdline
  lineFree : bar ∉ cmdline ∧ percent ∉ cmdline
  more : cmdline ≠ [newline, 0]
  faults : counts.procStatMinFlt = counts.procStatUtime ∧ counts.procStatMajFlt = counts.procStatStime

variable {pid : UInt64} {comm cmdline : Bytes} {counts : ProcInfo}

/-- The numbers of a line behind the command line. -/
def lineCounts (info : ProcInfo) : List UInt64 :=
  [info.fdCount.toUInt64, info.procRcharBytes, info.procWcharBytes, info.procSyscrCount.toUInt64,
   info.procSyscwCount.toUInt64, info.procReadBytes, info.procWriteBytes, info.procCancelledWriteBytes,
   info.procSharedClean, info.procSharedDirty, info.procPrivateClean, info.procPrivateDirty, info.procReferenced,
   info.procLazyfree, info.procSwap, info.procSwappss, info.procStatMinFlt, info.procStatMajFlt,
   info.procStatUtime, info.procStatStime, info.procStatVsize, info.procStatRss]

/-- The same in the order of the fields. -/
def fieldCounts (info : ProcInfo) : List UInt64 :=
  lineCounts { info with
    procStatMinFlt := info.procStatUtime
    procStatMajFlt := info.procStatStime
    procStatUtime := info.procStatMinFlt
    procStatStime := info.procStatMajFlt }

def printedCounts (counts : List UInt64) : List Bytes := counts.map fun count => unsigned count.toNat

theorem procValues_eq (proc : ProcHash) :
    procValues proc =
      unsigned proc.pid.toNat :: proc.info.comm.text :: proc.info.cmdline.getD [] :: printedCounts (lineCounts proc.info) :=
  rfl

def ownValues (pid : UInt64) (comm cmdline : Bytes) (counts : ProcInfo) : List Bytes :=
  unsigned pid.toNat :: firstLine comm :: commandLine cmdline :: printedCounts (fieldCounts counts)

theorem ownColumns_eq (pid : UInt64) (comm cmdline : Bytes) (counts : ProcInfo) :
    ownColumns pid comm cmdline counts =
      (systemProcMeta.metrics.map fun field => field.name.text).zip (ownValues pid comm cmdline counts) := by
  rw [systemProcMeta_names]
  rfl

theorem takeWhile_take (size : Nat) (keep : UInt8 → Bool) (text : Bytes) :
    (text.take size).takeWhile keep = (text.takeWhile keep).take size := by
  induction text generalizing size with
  | nil => rw [List.take_nil, List.takeWhile_nil, List.take_nil]
  | cons byte rest ih =>
      cases size with
      | zero => rfl
      | succ size =>
          rw [List.take_succ_cons, List.takeWhile_cons, List.takeWhile_cons]
          split
          case isTrue => rw [ih, List.take_succ_cons]
          case isFalse => rw [List.take_nil]

theorem getProcComm_text (output : Bytes) : (getProcComm output).text = firstLine output := by
  rw [getProcComm, doReadLine]
  split
  case isTrue empty =>
      subst output
      rfl
  case isFalse =>
      rw [CharArray.ofText_text, firstLine, takeWhile_take, List.take_take]
      rfl

theorem unsigned_storable (value : UInt64) : Storable (unsigned value.toNat) where
  nonempty := printed_ne_nil value.toNat
  barFree := printed_free (by decide) value.toNat
  percentFree := printed_free (by decide) value.toNat
  more same := by
    have free : newline ∉ unsigned value.toNat := printed_free (by decide) value.toNat
    rw [same] at free
    exact free List.mem_cons_self
  short := by
    have small : value.toNat < 10 ^ 20 := Nat.lt_trans value.toNat_lt (by decide)
    exact Nat.le_trans (length_printed_le (by decide) small) (by decide)

theorem printedCounts_storable (counts : List UInt64) : ∀ value ∈ printedCounts counts, Storable value := by
  rw [printedCounts, List.forall_mem_map]
  exact fun count _ => unsigned_storable count

theorem printedCounts_inj {left right : List UInt64} : printedCounts left = printedCounts right ↔ left = right := by
  constructor
  · apply List.map_injective_iff.mpr
    intro count other same
    exact UInt64.toNat_inj.mp (printed_nat_injective same)
  · exact congrArg printedCounts

theorem firstLine_stands (comm : Bytes) : Stands (firstLine comm) (firstLine comm) := by
  refine .inl ⟨List.prefix_rfl, ?_, ?_⟩
  · have short : (firstLine comm).length ≤ procNameMax - 1 := List.length_take_le _ _
    exact Nat.le_trans short (by decide)
  · intro empty
    rw [empty]
    exact (List.cons_ne_nil _ _).symm

theorem commandLine_stands {text : Option Bytes} (read : getProcCmdline (some cmdline) = .ok text) :
    Stands (text.getD []) (commandLine cmdline) := by
  obtain ⟨text, rfl, inside, short, _⟩ := getProcCmdline_sound read
  refine .inl ⟨prefix_commandLine inside short, ?_, ?_⟩
  · have fits : (commandLine cmdline).length ≤ lineBufLen - 1 := List.length_take_le _ _
    exact Nat.le_trans fits (by decide)
  · intro empty null
    rw [Option.getD_some] at empty
    obtain ⟨_, fromText⟩ := inside
    obtain ⟨_, fromGoal⟩ := commandLine_within cmdline
    rw [empty] at fromText
    rw [null] at fromGoal
    have first : some blank = invalidMetricValue.head? := congrArg List.head? (fromText.trans fromGoal.symm)
    exact absurd first (by decide)

theorem procValues_count (proc : ProcHash) : (procValues proc).length = systemProcMeta.metrics.length := by
  have names := congrArg List.length systemProcMeta_names
  have line : (procValues proc).length = 25 := rfl
  have counted : systemProcNames.length = 25 := rfl
  rw [List.length_map] at names
  rw [line, names, counted]

theorem metricsProcName_named : metricsProcName ≠ [] ∧ bar ∉ metricsProcName ∧ metricsProcName.length < 32 := by
  decide +kernel

theorem systemProcTable_keySize : (systemProcTable 1).recordKeySize = 512 := rfl

/-- The line of a process keeps its columns when each is written as its own,
and can be stored so. -/
theorem newProc_columns_iff {proc : ProcHash} (new : newProc pid comm (some cmdline) counts = .ok proc) :
    (∃ content fresh record,
      getTableNameAndContent (outputProcInfos proc) 32 = some (metricsProcName, content) ∧
      recordCreateWithKey systemProcMeta.metricsCapacity 512 = some fresh ∧
      dataBaseMgrParseContent systemProcMeta fresh content true = .ok record ∧
      record.metrics.map (fun metric => (metric.name.text, metric.val.text)) = ownColumns pid comm cmdline counts) ↔
    procValues proc = ownValues pid comm cmdline counts ∧
      ∀ value ∈ ownValues pid comm cmdline counts, Storable value := by
  obtain ⟨text, read, made⟩ := Outcome.bind_ok_iff.mp new
  have shape : procValues proc =
      unsigned pid.toNat :: firstLine comm :: text.getD [] :: printedCounts (lineCounts counts) := by
    cases made
    rw [procValues_eq, getProcComm_text]
    rfl
  have stands : List.Forall₂ Stands (procValues proc) (ownValues pid comm cmdline counts) := by
    have counted : (printedCounts (lineCounts counts)).length = (printedCounts (fieldCounts counts)).length := by
      rw [printedCounts, printedCounts, List.length_map, List.length_map]
      rfl
    rw [shape]
    exact .cons (.inr (unsigned_storable pid)) (.cons (firstLine_stands comm)
      (.cons (commandLine_stands read) (Storable.stands (printedCounts_storable _) counted)))
  have line := congrArg (fun values => fieldsText values [newline]) shape
  have storable := unsigned_storable pid
  obtain ⟨fresh, created, _⟩ := (systemProcTable_loaded 1).fills (by decide) []
  have parse := parseContent_columns_iff (systemProcTable_loaded 1) created systemProcMeta_plain
    (procValues_count proc) storable.barFree storable.nonempty line stands
  have named : getTableNameAndContent (outputProcInfos proc) 32 =
      some (metricsProcName, bar :: fieldsText (procValues proc) [newline]) :=
    getTableNameAndContent_probeLine metricsProcName_named.1 metricsProcName_named.2.1 metricsProcName_named.2.2
  rw [systemProcTable_keySize] at created
  rw [← parse, ownColumns_eq]
  constructor
  · intro given
    obtain ⟨content, other, record, split, made, parsed, columns⟩ := given
    rw [named, Option.some.injEq, Prod.mk.injEq] at split
    obtain ⟨_, rfl⟩ := split
    rw [created, Option.some.injEq] at made
    subst other
    exact ⟨record, parsed, columns⟩
  · intro given
    obtain ⟨record, parsed, columns⟩ := given
    exact ⟨_, fresh, record, named, created, parsed, columns⟩

theorem fieldCounts_iff : lineCounts counts = fieldCounts counts ↔
    counts.procStatMinFlt = counts.procStatUtime ∧ counts.procStatMajFlt = counts.procStatStime := by
  simp only [fieldCounts, lineCounts, List.cons.injEq, true_and, and_true]
  constructor
  · intro given
    exact ⟨given.1, given.2.1⟩
  · intro given
    exact ⟨given.1, given.2, given.1.symm, given.2.symm⟩

theorem firstLine_storable_iff :
    Storable (firstLine comm) ↔ firstLine comm ≠ [] ∧ bar ∉ firstLine comm ∧ percent ∉ firstLine comm := by
  constructor
  · intro storable
    exact ⟨storable.nonempty, storable.barFree, storable.percentFree⟩
  · intro given
    obtain ⟨nonempty, barFree, percentFree⟩ := given
    refine ⟨nonempty, barFree, percentFree, ?_, ?_⟩
    · intro same
      have member : newline ∈ firstLine comm := same ▸ List.mem_cons_self
      have kept := List.mem_takeWhile_imp (List.mem_of_mem_take member)
      exact absurd kept (by decide)
    · have short : (firstLine comm).length ≤ procNameMax - 1 := List.length_take_le _ _
      exact Nat.le_trans short (by decide)

theorem blanked_eq_iff {goal byte : UInt8} (text : goal ≠ 0) (inked : goal ≠ blank) : blanked byte = goal ↔ byte = goal := by
  rw [blanked]
  split
  case isTrue zero =>
      subst byte
      exact iff_of_false inked.symm text.symm
  case isFalse => rfl

theorem mem_map_blanked {goal : UInt8} {front : Bytes} (text : goal ≠ 0) (inked : goal ≠ blank) :
    goal ∈ front.map blanked ↔ goal ∈ front := by
  simp only [List.mem_map, blanked_eq_iff text inked, exists_eq_right]

theorem map_blanked_storable_iff {front : Bytes} (short : front.length ≤ 511) :
    Storable (front.map blanked) ↔ front ≠ [] ∧ bar ∉ front ∧ percent ∉ front ∧ front ≠ [newline] := by
  have bars := @mem_map_blanked bar front (by decide) (by decide)
  have percents := @mem_map_blanked percent front (by decide) (by decide)
  have newlines : front.map blanked = [newline] ↔ front = [newline] := by
    rw [List.map_eq_singleton_iff]
    simp only [@blanked_eq_iff newline _ (by decide) (by decide), exists_eq_right]
  rw [← List.length_map blanked] at short
  constructor
  · intro storable
    exact ⟨fun empty => storable.nonempty (List.map_eq_nil_iff.mpr empty), bars.not.mp storable.barFree,
      percents.not.mp storable.percentFree, newlines.not.mp storable.more⟩
  · intro given
    obtain ⟨nonempty, barFree, percentFree, more⟩ := given
    exact ⟨fun empty => nonempty (List.map_eq_nil_iff.mp empty), bars.not.mpr barFree,
      percents.not.mpr percentFree, newlines.not.mpr more, short⟩

/-- A command line that is read whole is stored as it is. -/
theorem commandLine_storable_iff {front : Bytes} (fits : (front ++ [0]).length < lineBufLen - 1) :
    Storable (commandLine (front ++ [0])) ↔ 2 ≤ (front ++ [0]).length ∧
      (bar ∉ front ++ [0] ∧ percent ∉ front ++ [0]) ∧ front ++ [0] ≠ [newline, 0] := by
  have size : front.length + 1 < 127 := by rwa [List.length_append] at fits
  have whole : (front.map blanked).take (lineBufLen - 1) = front.map blanked := by
    apply List.take_of_length_le
    rw [List.length_map]
    exact Nat.le_trans (by omega : front.length ≤ 127) (by decide)
  have ends : ∀ goal : UInt8, goal ≠ 0 → (goal ∈ front ++ [0] ↔ goal ∈ front) := by
    intro goal other
    rw [List.mem_append, List.mem_singleton, or_iff_left other]
  have more : front ++ [0] = [newline, 0] ↔ front = [newline] :=
    @List.append_left_inj _ front [newline] [0]
  have nonempty : 2 ≤ (front ++ [0]).length ↔ front ≠ [] := by
    rw [List.length_append, List.length_singleton, ← List.length_pos_iff]
    omega
  rw [commandLine_closed, whole, map_blanked_storable_iff (by omega), ends bar (by decide),
    ends percent (by decide), nonempty, ne_eq (front ++ [0]), more, and_assoc]

theorem keepsColumns_iff_stored : KeepsColumns pid comm cmdline counts ↔
    (getProcCmdline (some cmdline) = .ok (some (commandLine cmdline)) ∧ Storable (commandLine cmdline)) ∧
      Storable (firstLine comm) ∧ lineCounts counts = fieldCounts counts := by
  constructor
  · intro keeps
    obtain ⟨proc, content, fresh, record, new, stored⟩ := keeps
    obtain ⟨same, storable⟩ := (newProc_columns_iff new).mp ⟨content, fresh, record, stored⟩
    obtain ⟨text, read, made⟩ := Outcome.bind_ok_iff.mp new
    obtain ⟨text, rfl, _⟩ := getProcCmdline_sound read
    cases made
    rw [procValues_eq, ownValues, List.cons.injEq, List.cons.injEq, List.cons.injEq, printedCounts_inj] at same
    obtain ⟨_, _, line, numbers⟩ := same
    have exactly : text = commandLine cmdline := line
    rw [ownValues, List.forall_mem_cons, List.forall_mem_cons, List.forall_mem_cons] at storable
    rw [exactly] at read
    exact ⟨⟨read, storable.2.2.1⟩, storable.2.1, numbers⟩
  · intro given
    obtain ⟨⟨read, lineStorable⟩, nameStorable, numbers⟩ := given
    have new : newProc pid comm (some cmdline) counts =
        .ok { pid, info := { counts with comm := getProcComm comm, cmdline := some (commandLine cmdline) } } := by
      rw [newProc, read]
      rfl
    obtain ⟨content, fresh, record, stored⟩ := (newProc_columns_iff new).mpr ⟨by
      rw [procValues_eq, getProcComm_text, ownValues, ← numbers]
      rfl, by
      rw [ownValues, List.forall_mem_cons, List.forall_mem_cons, List.forall_mem_cons]
      exact ⟨unsigned_storable pid, nameStorable, lineStorable, printedCounts_storable _⟩⟩
    exact ⟨_, content, fresh, record, new, stored⟩

/-- A process keeps its columns exactly when it is regular. -/
theorem keepsColumns_iff (pid : UInt64) (comm cmdline : Bytes) (counts : ProcInfo) :
    KeepsColumns pid comm cmdline counts ↔ Regular comm cmdline counts := by
  rw [keepsColumns_iff_stored, firstLine_storable_iff, fieldCounts_iff, getProcCmdline_iff]
  constructor
  · intro given
    obtain ⟨⟨⟨closed, fits, clean⟩, storable⟩, ⟨named, nameFree⟩, faults⟩ := given
    obtain ⟨front, rfl⟩ := List.getLast?_eq_some_iff.mp closed
    obtain ⟨long, lineFree, more⟩ := (commandLine_storable_iff fits).mp storable
    exact { named, nameFree, closed, size := ⟨long, Nat.le_of_lt_succ fits⟩, clean, lineFree, more, faults }
  · intro regular
    have closed := regular.closed
    have fits : cmdline.length < lineBufLen - 1 := Nat.lt_succ_of_le regular.size.2
    obtain ⟨front, rfl⟩ := List.getLast?_eq_some_iff.mp closed
    have storable := (commandLine_storable_iff fits).mpr ⟨regular.size.1, regular.lineFree, regular.more⟩
    exact ⟨⟨⟨closed, fits, regular.clean⟩, storable⟩, ⟨regular.named, regular.nameFree⟩, regular.faults⟩

example : Regular (ascii "java\n") (ascii "java\x00-jar\x00app.jar\x00") { fdCount := 5 } where
  named := by decide
  nameFree := by decide
  closed := by decide
  size := by decide
  clean := by decide
  lineFree := by decide
  more := by decide
  faults := by decide

/-- A bar in the last argument of a script. -/
theorem pipe_moves_columns :
    ¬ KeepsColumns 4242 (ascii "python3\n") (ascii "python3\x00a|b\x00")
      { fdCount := 5, procStatMinFlt := 300, procStatUtime := 12, procStatStime := 4 } := by
  rw [keepsColumns_iff_stored]
  intro given
  exact absurd given.1.2.barFree (by decide)

end GalaGopher.Probe
