import GalaGopher.Data.LastWrite
import GalaGopher.Ebpf.Container.Lookup

namespace GalaGopher.Ebpf.Containerd

open Data Text

/-! The metrics of the containers' cgroups, read into one record for all of
them. -/

def coerNum : Nat := 16

/-- The first lines of the files of a cgroup, without their newlines, where they
can be read. -/
structure CgroupFiles where
  memoryUsageInBytes : Option Bytes
  memoryLimitInBytes : Option Bytes
  memoryStatCache : Option Bytes
  cpuacctUsage : Option Bytes
  cpuacctUsagePercpu : Option Bytes
  pidsCurrent : Option Bytes
  pidsMax : Option Bytes

section Read

variable {α : Type}

/-- `struct cgroup_metric`, and what is written behind its array. -/
structure CgroupMetric (α : Type) where
  memoryUsageInBytes : α
  memoryLimitInBytes : α
  memoryStatCache : α
  cpuacctUsage : α
  cpuacctUsagePercpu : Vector α coerNum
  pidsCurrent : α
  pidsLimit : α
  beyond : List (Nat × α) := []

def strtoull (line : Bytes) : UInt64 := UInt64.ofNat (strtoul line)

/-- `PID_MAX_LIMIT`, where `^` is the exclusive or. -/
def pidMaxLimit : UInt64 := 2 ^^^ 22

-- A number that is read is kept as it is, or with the container it is of.
variable (store : UInt64 → α)

def getContainerMemoryMetric (files : CgroupFiles) (cgroup : CgroupMetric α) : CgroupMetric α :=
  match files.memoryUsageInBytes with
  | none => cgroup
  | some line =>
      let cgroup := { cgroup with memoryUsageInBytes := store (strtoull line) }
      match files.memoryLimitInBytes with
      | none => cgroup
      | some line =>
          let cgroup := { cgroup with memoryLimitInBytes := store (strtoull line) }
          match files.memoryStatCache with
          | none => cgroup
          | some line => { cgroup with memoryStatCache := store (strtoull line) }

/-- `cgroup->cpuacct_usage_percpu[cpu_no++]`, with the number of the CPU. -/
def writePercpu (cgroup : CgroupMetric α) (entry : Bytes × Nat) : CgroupMetric α :=
  if inside : entry.2 < coerNum then
    { cgroup with cpuacctUsagePercpu := cgroup.cpuacctUsagePercpu.set entry.2 (store (strtoull entry.1)) }
  else
    { cgroup with beyond := cgroup.beyond ++ [(entry.2, store (strtoull entry.1))] }

def getContainerCpuacctMetric (files : CgroupFiles) (cgroup : CgroupMetric α) : CgroupMetric α :=
  match files.cpuacctUsage with
  | none => cgroup
  | some line =>
      let cgroup := { cgroup with cpuacctUsage := store (strtoull line) }
      match files.cpuacctUsagePercpu with
      | none => cgroup
      | some line => (strtok line space).zipIdx.foldl (writePercpu store) cgroup

def pidsLimitOf (line : Bytes) : UInt64 := if line = ascii "max" then pidMaxLimit else strtoull line

def getContainerPidsMetric (files : CgroupFiles) (cgroup : CgroupMetric α) : CgroupMetric α :=
  match files.pidsCurrent with
  | none => cgroup
  | some line =>
      let cgroup := { cgroup with pidsCurrent := store (strtoull line) }
      match files.pidsMax with
      | none => cgroup
      | some line => { cgroup with pidsLimit := store (pidsLimitOf line) }

def getContainerCgroupMetric (files : CgroupFiles) (cgroup : CgroupMetric α) : CgroupMetric α :=
  let cgroup := getContainerMemoryMetric store files cgroup
  let cgroup := getContainerCpuacctMetric store files cgroup
  getContainerPidsMetric store files cgroup

end Read

/-- The key of an item, and the values that are printed of it. -/
structure ContainerValue (α : Type) where
  containerId : Bytes
  namespaceName : Bytes := []
  taskPid : UInt32
  cgpid : UInt32
  memoryUsageInBytes : α
  memoryLimitInBytes : α
  memoryStatCache : α
  cpuacctUsage : α
  pidsCurrent : α
  pidsLimit : α

section Print

variable {α : Type}

def subDir (item : ContainerValue α) : Bytes :=
  if item.namespaceName = [] then ascii "docker/" ++ item.containerId
  else item.namespaceName ++ ascii "/" ++ item.containerId

def takeMetrics (results : Container.Results) (cgroup : CgroupMetric α) (item : ContainerValue α) : ContainerValue α :=
  { item with
    cgpid := (Container.getCgroupIdBypid results item.taskPid).getD item.cgpid
    memoryUsageInBytes := cgroup.memoryUsageInBytes
    memoryLimitInBytes := cgroup.memoryLimitInBytes
    memoryStatCache := cgroup.memoryStatCache
    cpuacctUsage := cgroup.cpuacctUsage
    pidsCurrent := cgroup.pidsCurrent
    pidsLimit := cgroup.pidsLimit }

variable (store : Bytes → UInt64 → α) (cgroups : Bytes → CgroupFiles) (results : Container.Results)

def readItem (cgroup : CgroupMetric α) (item : ContainerValue α) : CgroupMetric α :=
  getContainerCgroupMetric (store item.containerId) (cgroups (subDir item)) cgroup

/-- The loop over the table: the items as they are printed, and the record at
the end.  It is on the stack, and `cgroup` is what it holds first. -/
def printContainerMetric : List (ContainerValue α) → CgroupMetric α → List (ContainerValue α) × CgroupMetric α
  | [], cgroup => ([], cgroup)
  | item :: rest, cgroup =>
      let cgroup := readItem store cgroups cgroup item
      let (printed, last) := printContainerMetric rest cgroup
      (takeMetrics results cgroup item :: printed, last)

end Print

def metricLine (item : ContainerValue UInt64) : Bytes :=
  let values := [item.cgpid.toNat, item.taskPid.toNat, item.memoryUsageInBytes.toNat, item.memoryLimitInBytes.toNat,
    item.memoryStatCache.toNat, item.cpuacctUsage.toNat, item.pidsCurrent.toNat, item.pidsLimit.toNat]
  ascii "|container_data|" ++ item.containerId ++ values.flatMap (fun value => ascii "|" ++ ascii (toString value)) ++
    ascii "|\n"

inductive Metric where
  | memoryUsageInBytes
  | memoryLimitInBytes
  | memoryStatCache
  | cpuacctUsage
  | pidsCurrent
  | pidsLimit
deriving DecidableEq

/-- What is read of a file, if none that is read before it fails. -/
def CgroupFiles.value (files : CgroupFiles) : Metric → Option UInt64
  | .memoryUsageInBytes => files.memoryUsageInBytes.map strtoull
  | .memoryLimitInBytes => files.memoryUsageInBytes.bind fun _ => files.memoryLimitInBytes.map strtoull
  | .memoryStatCache =>
      files.memoryUsageInBytes.bind fun _ => files.memoryLimitInBytes.bind fun _ => files.memoryStatCache.map strtoull
  | .cpuacctUsage => files.cpuacctUsage.map strtoull
  | .pidsCurrent => files.pidsCurrent.map strtoull
  | .pidsLimit => files.pidsCurrent.bind fun _ => files.pidsMax.map pidsLimitOf

/-- The numbers on the line of the CPUs, if it is reached. -/
def CgroupFiles.percpu (files : CgroupFiles) : List Bytes :=
  ((files.cpuacctUsage.bind fun _ => files.cpuacctUsagePercpu).map fun line => strtok line space).getD []

section Values

variable {α β : Type}

def CgroupMetric.value (cgroup : CgroupMetric α) : Metric → α
  | .memoryUsageInBytes => cgroup.memoryUsageInBytes
  | .memoryLimitInBytes => cgroup.memoryLimitInBytes
  | .memoryStatCache => cgroup.memoryStatCache
  | .cpuacctUsage => cgroup.cpuacctUsage
  | .pidsCurrent => cgroup.pidsCurrent
  | .pidsLimit => cgroup.pidsLimit

def ContainerValue.value (item : ContainerValue α) : Metric → α
  | .memoryUsageInBytes => item.memoryUsageInBytes
  | .memoryLimitInBytes => item.memoryLimitInBytes
  | .memoryStatCache => item.memoryStatCache
  | .cpuacctUsage => item.cpuacctUsage
  | .pidsCurrent => item.pidsCurrent
  | .pidsLimit => item.pidsLimit

theorem value_takeMetrics (results : Container.Results) (cgroup : CgroupMetric α) (item : ContainerValue α)
    (metric : Metric) : (takeMetrics results cgroup item).value metric = cgroup.value metric := by
  cases metric <;> rfl

variable (store : UInt64 → α)

theorem value_memory (files : CgroupFiles) (cgroup : CgroupMetric α) (metric : Metric) :
    (getContainerMemoryMetric store files cgroup).value metric =
      match metric with
      | .memoryUsageInBytes | .memoryLimitInBytes | .memoryStatCache =>
          ((files.value metric).map store).getD (cgroup.value metric)
      | _ => cgroup.value metric := by
  obtain ⟨usage, limit, cache, _, _, _, _⟩ := files
  cases usage with
  | none => cases metric <;> rfl
  | some usage =>
      cases limit with
      | none => cases metric <;> rfl
      | some limit => cases cache <;> cases metric <;> rfl

theorem value_writePercpu (cgroup : CgroupMetric α) (entry : Bytes × Nat) (metric : Metric) :
    (writePercpu store cgroup entry).value metric = cgroup.value metric := by
  unfold writePercpu
  split <;> cases metric <;> rfl

theorem value_foldl_writePercpu (entries : List (Bytes × Nat)) (cgroup : CgroupMetric α) (metric : Metric) :
    (entries.foldl (writePercpu store) cgroup).value metric = cgroup.value metric := by
  induction entries generalizing cgroup with
  | nil => rfl
  | cons entry entries ih => rw [List.foldl_cons, ih, value_writePercpu]

theorem value_cpuacct (files : CgroupFiles) (cgroup : CgroupMetric α) (metric : Metric) :
    (getContainerCpuacctMetric store files cgroup).value metric =
      match metric with
      | .cpuacctUsage => ((files.value metric).map store).getD (cgroup.value metric)
      | _ => cgroup.value metric := by
  obtain ⟨_, _, _, usage, percpu, _, _⟩ := files
  cases usage with
  | none => cases metric <;> rfl
  | some usage =>
      cases percpu with
      | none => cases metric <;> rfl
      | some line =>
          refine (value_foldl_writePercpu store _ _ metric).trans ?_
          cases metric <;> rfl

theorem value_pids (files : CgroupFiles) (cgroup : CgroupMetric α) (metric : Metric) :
    (getContainerPidsMetric store files cgroup).value metric =
      match metric with
      | .pidsCurrent | .pidsLimit => ((files.value metric).map store).getD (cgroup.value metric)
      | _ => cgroup.value metric := by
  obtain ⟨_, _, _, _, _, current, limit⟩ := files
  cases current with
  | none => cases metric <;> rfl
  | some current => cases limit <;> cases metric <;> rfl

/-- A field has what was read of its file, or what it had before. -/
theorem value_getContainerCgroupMetric (files : CgroupFiles) (cgroup : CgroupMetric α) (metric : Metric) :
    (getContainerCgroupMetric store files cgroup).value metric =
      ((files.value metric).map store).getD (cgroup.value metric) := by
  rw [getContainerCgroupMetric, value_pids]
  cases metric <;> simp only [value_cpuacct, value_memory]

/-- The entries of the CPUs for which the array has no place. -/
def overflow (entries : List (Bytes × Nat)) : List (Nat × α) :=
  (entries.filter fun entry => coerNum ≤ entry.2).map fun entry => (entry.2, store (strtoull entry.1))

theorem beyond_foldl_writePercpu (entries : List (Bytes × Nat)) (cgroup : CgroupMetric α) :
    (entries.foldl (writePercpu store) cgroup).beyond = cgroup.beyond ++ overflow store entries := by
  induction entries generalizing cgroup with
  | nil => exact (List.append_nil _).symm
  | cons entry entries ih =>
      rw [List.foldl_cons, ih]
      by_cases inside : entry.2 < coerNum
      · rw [writePercpu, dif_pos inside, overflow, overflow, List.filter_cons_of_neg (by simpa using inside)]
      · rw [writePercpu, dif_neg inside, overflow, overflow,
          List.filter_cons_of_pos (by simpa using inside), List.map_cons, List.append_assoc]
        rfl

theorem beyond_getContainerCgroupMetric (files : CgroupFiles) (cgroup : CgroupMetric α) :
    (getContainerCgroupMetric store files cgroup).beyond = cgroup.beyond ++ overflow store files.percpu.zipIdx := by
  have memory : (getContainerMemoryMetric store files cgroup).beyond = cgroup.beyond := by
    obtain ⟨usage, limit, cache, _, _, _, _⟩ := files
    cases usage <;> cases limit <;> cases cache <;> rfl
  have pids (cgroup : CgroupMetric α) : (getContainerPidsMetric store files cgroup).beyond = cgroup.beyond := by
    obtain ⟨_, _, _, _, _, current, limit⟩ := files
    cases current <;> cases limit <;> rfl
  rw [getContainerCgroupMetric, pids, ← memory]
  generalize getContainerMemoryMetric store files cgroup = cgroup
  obtain ⟨_, _, _, usage, percpu, _, _⟩ := files
  cases usage with
  | none => exact (List.append_nil _).symm
  | some usage =>
      cases percpu with
      | none => exact (List.append_nil _).symm
      | some line => exact beyond_foldl_writePercpu store _ _

theorem overflow_eq_nil_iff (tokens : List Bytes) :
    overflow store tokens.zipIdx = [] ↔ tokens.length ≤ coerNum := by
  rw [overflow, List.map_eq_nil_iff, List.filter_eq_nil_iff]
  constructor
  · intro none
    by_contra long
    have inside : coerNum < tokens.length := Nat.lt_of_not_le long
    exact none (tokens[coerNum], coerNum) (List.mk_mem_zipIdx_iff_getElem?.mpr (List.getElem?_eq_getElem inside)) (by simp)
  · intro short entry member
    have here := List.getElem?_eq_some_iff.mp (List.mk_mem_zipIdx_iff_getElem?.mp member)
    obtain ⟨inside, _⟩ := here
    simp only [decide_eq_true_eq]
    omega

end Values

inductive Source where
  /-- Nothing was written there in this call. -/
  | stack
  | cgroup (containerId : Bytes)
  /-- The item had the value before. -/
  | item (containerId : Bytes)
deriving DecidableEq

structure Cell where
  value : UInt64
  source : Source

def Cell.read (containerId : Bytes) (value : UInt64) : Cell := ⟨value, .cgroup containerId⟩

/-- Read of the container's own cgroup, or its previous value, which is 0 at
first. -/
def Cell.Own (containerId : Bytes) (cell : Cell) : Prop :=
  cell.source = .cgroup containerId ∨ cell.source = .item containerId

section Map

variable {α β : Type}

def CgroupMetric.map (change : α → β) (cgroup : CgroupMetric α) : CgroupMetric β where
  memoryUsageInBytes := change cgroup.memoryUsageInBytes
  memoryLimitInBytes := change cgroup.memoryLimitInBytes
  memoryStatCache := change cgroup.memoryStatCache
  cpuacctUsage := change cgroup.cpuacctUsage
  cpuacctUsagePercpu := cgroup.cpuacctUsagePercpu.map change
  pidsCurrent := change cgroup.pidsCurrent
  pidsLimit := change cgroup.pidsLimit
  beyond := cgroup.beyond.map fun entry => (entry.1, change entry.2)

def ContainerValue.map (change : α → β) (item : ContainerValue α) : ContainerValue β where
  containerId := item.containerId
  namespaceName := item.namespaceName
  taskPid := item.taskPid
  cgpid := item.cgpid
  memoryUsageInBytes := change item.memoryUsageInBytes
  memoryLimitInBytes := change item.memoryLimitInBytes
  memoryStatCache := change item.memoryStatCache
  cpuacctUsage := change item.cpuacctUsage
  pidsCurrent := change item.pidsCurrent
  pidsLimit := change item.pidsLimit

end Map

def traced (cgroups : Bytes → CgroupFiles) (results : Container.Results) (table : List (ContainerValue UInt64))
    (stack : CgroupMetric UInt64) : List (ContainerValue Cell) × CgroupMetric Cell :=
  printContainerMetric Cell.read cgroups results
    (table.map fun item => item.map fun value => ⟨value, .item item.containerId⟩)
    (stack.map fun value => ⟨value, .stack⟩)

section Erase

variable {α β : Type} (change : α → β)

theorem map_writePercpu (store : UInt64 → α) (cgroup : CgroupMetric α) (entry : Bytes × Nat) :
    (writePercpu store cgroup entry).map change =
      writePercpu (fun value => change (store value)) (cgroup.map change) entry := by
  unfold writePercpu
  split
  case isTrue => simp [CgroupMetric.map, Vector.map_set]
  case isFalse => simp [CgroupMetric.map]

theorem map_foldl_writePercpu (store : UInt64 → α) (entries : List (Bytes × Nat)) (cgroup : CgroupMetric α) :
    (entries.foldl (writePercpu store) cgroup).map change =
      entries.foldl (writePercpu fun value => change (store value)) (cgroup.map change) := by
  induction entries generalizing cgroup with
  | nil => rfl
  | cons entry entries ih => rw [List.foldl_cons, List.foldl_cons, ih, map_writePercpu]

/-- The values read do not depend on what is kept beside them. -/
theorem map_getContainerCgroupMetric (store : UInt64 → α) (files : CgroupFiles) (cgroup : CgroupMetric α) :
    (getContainerCgroupMetric store files cgroup).map change =
      getContainerCgroupMetric (fun value => change (store value)) files (cgroup.map change) := by
  obtain ⟨usage, limit, cache, cpuacct, percpu, current, max⟩ := files
  have memory (cgroup : CgroupMetric α) :
      (getContainerMemoryMetric store ⟨usage, limit, cache, cpuacct, percpu, current, max⟩ cgroup).map change =
        getContainerMemoryMetric (fun value => change (store value)) ⟨usage, limit, cache, cpuacct, percpu, current, max⟩
          (cgroup.map change) := by
    cases usage <;> cases limit <;> cases cache <;> rfl
  have cpus (cgroup : CgroupMetric α) :
      (getContainerCpuacctMetric store ⟨usage, limit, cache, cpuacct, percpu, current, max⟩ cgroup).map change =
        getContainerCpuacctMetric (fun value => change (store value)) ⟨usage, limit, cache, cpuacct, percpu, current, max⟩
          (cgroup.map change) := by
    cases cpuacct with
    | none => rfl
    | some line =>
        cases percpu with
        | none => rfl
        | some line => exact map_foldl_writePercpu change store _ _
  have pids (cgroup : CgroupMetric α) :
      (getContainerPidsMetric store ⟨usage, limit, cache, cpuacct, percpu, current, max⟩ cgroup).map change =
        getContainerPidsMetric (fun value => change (store value)) ⟨usage, limit, cache, cpuacct, percpu, current, max⟩
          (cgroup.map change) := by
    cases current <;> cases max <;> rfl
  simp only [getContainerCgroupMetric, pids, cpus, memory]

theorem map_readItem (store : Bytes → UInt64 → α) (cgroups : Bytes → CgroupFiles) (cgroup : CgroupMetric α)
    (item : ContainerValue α) :
    readItem (fun containerId value => change (store containerId value)) cgroups (cgroup.map change) (item.map change) =
      (readItem store cgroups cgroup item).map change :=
  (map_getContainerCgroupMetric change (store item.containerId) (cgroups (subDir item)) cgroup).symm

theorem map_printContainerMetric (store : Bytes → UInt64 → α) (cgroups : Bytes → CgroupFiles)
    (results : Container.Results) (table : List (ContainerValue α)) (cgroup : CgroupMetric α) :
    printContainerMetric (fun containerId value => change (store containerId value)) cgroups results
      (table.map (ContainerValue.map change)) (cgroup.map change) =
        ((printContainerMetric store cgroups results table cgroup).1.map (ContainerValue.map change),
          (printContainerMetric store cgroups results table cgroup).2.map change) := by
  induction table generalizing cgroup with
  | nil => rfl
  | cons item table ih =>
      simp only [List.map_cons, printContainerMetric, map_readItem, ih]
      rfl

end Erase

/-- The lines printed are those of the call with sources. -/
theorem traced_printed (cgroups : Bytes → CgroupFiles) (results : Container.Results)
    (table : List (ContainerValue UInt64)) (stack : CgroupMetric UInt64) :
    (traced cgroups results table stack).1.map (ContainerValue.map Cell.value) =
      (printContainerMetric (fun _ value => value) cgroups results table stack).1 := by
  have plain := map_printContainerMetric Cell.value Cell.read cgroups results
    (table.map fun item => item.map fun value => ⟨value, .item item.containerId⟩) (stack.map fun value => ⟨value, .stack⟩)
  have items : (table.map fun item => item.map fun value => (⟨value, .item item.containerId⟩ : Cell)).map
      (ContainerValue.map Cell.value) = table := by
    rw [List.map_map]
    exact List.map_id' table
  have cells : (stack.map fun value => (⟨value, .stack⟩ : Cell)).map Cell.value = stack := by
    obtain ⟨_, _, _, _, percpu, _, _, beyond⟩ := stack
    simp only [CgroupMetric.map, Vector.map_map, List.map_map, CgroupMetric.mk.injEq, true_and]
    exact ⟨Vector.map_id percpu, List.map_id beyond⟩
  rw [items, cells] at plain
  rw [traced]
  exact (congrArg Prod.fst plain).symm

/-- Every value on a line is the container's own, and nothing is written behind
the array. -/
structure Unmixed (cgroups : Bytes → CgroupFiles) (results : Container.Results) (table : List (ContainerValue UInt64))
    (stack : CgroupMetric UInt64) : Prop where
  own : ∀ item ∈ (traced cgroups results table stack).1, ∀ metric, (item.value metric).Own item.containerId
  within : (traced cgroups results table stack).2.beyond = []

/-- All files with a value that is printed can be read, and no more CPUs are
listed than the array has places. -/
structure CgroupFiles.Complete (files : CgroupFiles) : Prop where
  read : ∀ metric, (files.value metric).isSome
  few : files.percpu.length ≤ coerNum

/-- What is left in the record belongs to none of these containers. -/
def Foreign (cgroup : CgroupMetric Cell) (table : List (ContainerValue Cell)) : Prop :=
  ∀ item ∈ table, ∀ metric, ¬(cgroup.value metric).Own item.containerId

variable {cgroups : Bytes → CgroupFiles} {cgroup : CgroupMetric Cell} {item : ContainerValue Cell}
  {table : List (ContainerValue Cell)}

theorem own_readItem_iff (foreign : ∀ metric, ¬(cgroup.value metric).Own item.containerId) (metric : Metric) :
    ((readItem Cell.read cgroups cgroup item).value metric).Own item.containerId ↔
      ((cgroups (subDir item)).value metric).isSome := by
  rw [readItem, value_getContainerCgroupMetric]
  cases read : (cgroups (subDir item)).value metric with
  | none => exact iff_of_false (foreign metric) Bool.false_ne_true
  | some value => exact iff_of_true (.inl rfl) rfl

theorem foreign_readItem (foreign : Foreign cgroup (item :: table))
    (distinct : ((item :: table).map ContainerValue.containerId).Nodup) :
    Foreign (readItem Cell.read cgroups cgroup item) table := by
  intro other member metric
  rw [readItem, value_getContainerCgroupMetric]
  cases (cgroups (subDir item)).value metric with
  | none => exact foreign other (List.mem_cons_of_mem _ member) metric
  | some value =>
      have apart : item.containerId ≠ other.containerId := by
        intro same
        exact (List.nodup_cons.mp distinct).1 (same ▸ List.mem_map_of_mem member)
      rintro (read | before)
      · exact apart (Source.cgroup.inj read)
      · cases before

theorem own_printed_iff (results : Container.Results) (foreign : Foreign cgroup table)
    (distinct : (table.map ContainerValue.containerId).Nodup) :
    (∀ item ∈ (printContainerMetric Cell.read cgroups results table cgroup).1, ∀ metric,
        (item.value metric).Own item.containerId) ↔
      ∀ item ∈ table, ∀ metric, ((cgroups (subDir item)).value metric).isSome := by
  induction table generalizing cgroup with
  | nil => simp [printContainerMetric]
  | cons item table ih =>
      have after : Foreign (readItem Cell.read cgroups cgroup item) table := foreign_readItem foreign distinct
      have later := ih after (List.nodup_cons.mp distinct).2
      simp only [printContainerMetric, List.forall_mem_cons, later, value_takeMetrics]
      refine and_congr_left fun _ => forall_congr' fun metric => ?_
      exact own_readItem_iff (foreign item List.mem_cons_self) metric

theorem beyond_printed (results : Container.Results) (table : List (ContainerValue Cell)) (cgroup : CgroupMetric Cell) :
    (printContainerMetric Cell.read cgroups results table cgroup).2.beyond = cgroup.beyond ++
      table.flatMap fun item => overflow (Cell.read item.containerId) (cgroups (subDir item)).percpu.zipIdx := by
  induction table generalizing cgroup with
  | nil => exact (List.append_nil _).symm
  | cons item table ih =>
      simp only [printContainerMetric, ih, readItem, beyond_getContainerCgroupMetric, List.flatMap_cons, List.append_assoc]

theorem complete_iff (files : CgroupFiles) :
    files.Complete ↔ (∀ metric, (files.value metric).isSome) ∧ files.percpu.length ≤ coerNum :=
  ⟨fun complete => ⟨complete.read, complete.few⟩, fun ⟨read, few⟩ => ⟨read, few⟩⟩

/-- The lines are those of their own containers just when every container's
files are complete. -/
theorem metrics_unmixed_iff (cgroups : Bytes → CgroupFiles) (results : Container.Results)
    {table : List (ContainerValue UInt64)} (distinct : (table.map ContainerValue.containerId).Nodup)
    {stack : CgroupMetric UInt64} (clean : stack.beyond = []) :
    Unmixed cgroups results table stack ↔ ∀ item ∈ table, (cgroups (subDir item)).Complete := by
  let cells : List (ContainerValue Cell) := table.map fun item => item.map fun value => ⟨value, .item item.containerId⟩
  let start : CgroupMetric Cell := stack.map fun value => ⟨value, .stack⟩
  have foreign : Foreign start cells := by
    intro item _ metric
    have unread : (start.value metric).source = .stack := by cases metric <;> rfl
    rintro (read | before)
    · cases unread.symm.trans read
    · cases unread.symm.trans before
  have keys : (cells.map ContainerValue.containerId).Nodup := by
    rw [List.map_map]
    exact distinct
  have own : (∀ item ∈ (printContainerMetric Cell.read cgroups results cells start).1, ∀ metric,
      (item.value metric).Own item.containerId) ↔
        ∀ item ∈ cells, ∀ metric, ((cgroups (subDir item)).value metric).isSome := own_printed_iff results foreign keys
  have within : (printContainerMetric Cell.read cgroups results cells start).2.beyond = [] ↔
      ∀ item ∈ cells, (cgroups (subDir item)).percpu.length ≤ coerNum := by
    have empty : start.beyond = [] := by
      change stack.beyond.map _ = []
      rw [clean]
      rfl
    rw [beyond_printed, empty, List.nil_append, List.flatMap_eq_nil_iff]
    exact forall₂_congr fun item _ => overflow_eq_nil_iff _ _
  calc Unmixed cgroups results table stack
    _ ↔ (∀ item ∈ cells, ∀ metric, ((cgroups (subDir item)).value metric).isSome) ∧
          ∀ item ∈ cells, (cgroups (subDir item)).percpu.length ≤ coerNum :=
      ⟨fun unmixed => ⟨own.mp unmixed.own, within.mp unmixed.within⟩,
        fun ⟨read, few⟩ => ⟨own.mpr read, within.mpr few⟩⟩
    _ ↔ ∀ item ∈ cells, (cgroups (subDir item)).Complete := by
      simp only [complete_iff, ← forall₂_and]
    _ ↔ ∀ item ∈ table, (cgroups (subDir item)).Complete := by
      simp only [cells, List.forall_mem_map]
      rfl

section Runs

/-- A container of Docker that has no value yet. -/
def fresh (containerId : Bytes) (taskPid : UInt32) : ContainerValue UInt64 where
  containerId := containerId
  taskPid := taskPid
  cgpid := 0
  memoryUsageInBytes := 0
  memoryLimitInBytes := 0
  memoryStatCache := 0
  cpuacctUsage := 0
  pidsCurrent := 0
  pidsLimit := 0

def zeroed : CgroupMetric UInt64 where
  memoryUsageInBytes := 0
  memoryLimitInBytes := 0
  memoryStatCache := 0
  cpuacctUsage := 0
  cpuacctUsagePercpu := .replicate coerNum 0
  pidsCurrent := 0
  pidsLimit := 0

/-- The files of a cgroup with 4096 bytes in use on two CPUs. -/
def running : CgroupFiles where
  memoryUsageInBytes := some (ascii "4096")
  memoryLimitInBytes := some (ascii "8192")
  memoryStatCache := some (ascii "512")
  cpuacctUsage := some (ascii "70")
  cpuacctUsagePercpu := some (ascii "30 40")
  pidsCurrent := some (ascii "3")
  pidsMax := some (ascii "max")

/-- The files of a container that has just stopped. -/
def gone : CgroupFiles where
  memoryUsageInBytes := none
  memoryLimitInBytes := none
  memoryStatCache := none
  cpuacctUsage := none
  cpuacctUsagePercpu := none
  pidsCurrent := none
  pidsMax := none

def firstRuns (containers : Bytes) : CgroupFiles :=
  if containers = ascii "docker/3f4a" then running else gone

/-- The files of another container, on three CPUs and with a limit. -/
def limited : CgroupFiles :=
  { running with
    memoryUsageInBytes := some (ascii "100")
    cpuacctUsagePercpu := some (ascii "1 2 3")
    pidsMax := some (ascii "64") }

def bothRun (containers : Bytes) : CgroupFiles := if containers = ascii "docker/3f4a" then running else limited

theorem metrics_unmixed_both :
    Unmixed bothRun (fun _ => none) [fresh (ascii "3f4a") 7, fresh (ascii "92a7") 9] zeroed := by
  refine (metrics_unmixed_iff bothRun (fun _ => none) (by decide) rfl).mpr ?_
  have first : bothRun (subDir (fresh (ascii "3f4a") 7)) = running := if_pos (by decide +kernel)
  have second : bothRun (subDir (fresh (ascii "92a7") 9)) = limited := if_neg (by decide +kernel)
  rintro item member
  simp only [List.mem_cons, List.not_mem_nil, or_false] at member
  rcases member with rfl | rfl
  · rw [first]
    exact ⟨fun metric => by cases metric <;> rfl, by decide +kernel⟩
  · rw [second]
    exact ⟨fun metric => by cases metric <;> rfl, by decide +kernel⟩

/-- The container that has stopped is printed with the memory and the time of
the one before it. -/
theorem stopped_container_takes_first :
    let table := [fresh (ascii "3f4a") 7, fresh (ascii "92a7") 9]
    (printContainerMetric (fun _ value => value) firstRuns (fun _ => none) table zeroed).1.map metricLine =
        [ascii "|container_data|3f4a|0|7|4096|8192|512|70|3|20|\n",
          ascii "|container_data|92a7|0|9|4096|8192|512|70|3|20|\n"] ∧
      ¬Unmixed firstRuns (fun _ => none) table zeroed := by
  refine ⟨by decide +kernel, fun unmixed => ?_⟩
  have second : ((traced firstRuns (fun _ => none) [fresh (ascii "3f4a") 7, fresh (ascii "92a7") 9] zeroed).1[1]?.map
      fun item => (item.containerId, (item.value .memoryUsageInBytes).source)) =
        some (ascii "92a7", .cgroup (ascii "3f4a")) := by decide +kernel
  obtain ⟨item, here, read⟩ := Option.map_eq_some_iff.mp second
  obtain ⟨key, source⟩ := Prod.mk.inj read
  rcases unmixed.own item (List.mem_of_getElem? here) .memoryUsageInBytes with own | own
  · rw [source, key] at own
    exact absurd own (by decide)
  · rw [source] at own
    cases own

end Runs

end GalaGopher.Ebpf.Containerd
