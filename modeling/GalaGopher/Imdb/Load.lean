import GalaGopher.Imdb.Table

namespace GalaGopher.Imdb

open GalaGopher.Text GalaGopher.Data

structure Field where
  description : CharArray 256
  type : CharArray 64
  name : CharArray 64
deriving DecidableEq, Repr

structure Measurement where
  name : CharArray 64
  fields : List Field
  bounded : fields.length ≤ 128
deriving DecidableEq, Repr

/-- The loop of `IMDBMgrTableLoad`, which counts the key fields. -/
def loadFields : List Field → Record → (keyNum : Nat) → Outcome (Record × Nat)
  | [], record, keyNum => .ok (record, keyNum)
  | field :: rest, record, keyNum => do
      let metric ← metricCreate field.name.text field.description.text field.type.text
      let record ← recordAddMetric record metric
      loadFields rest record (if field.type.text = metricTypeKey then keyNum + 1 else keyNum)

def imdbMgrTableLoad (table : Table) (mm : Measurement) : Outcome Table :=
  match recordCreate mm.fields.length with
  | none => .error .failed
  | some metaRecord => do
      let (metaRecord, keyNum) ← loadFields mm.fields metaRecord 0
      return tableSetRecordKeySize (tableSetMeta table metaRecord) keyNum

def imdbMgrDatabaseLoad (imdbMgr : DataBaseMgr) (recordsCapability : Nat) :
    List Measurement → Outcome DataBaseMgr
  | [] => .ok imdbMgr
  | mm :: rest => do
      let table ← imdbMgrTableLoad (tableCreate mm.name.text recordsCapability) mm
      match dataBaseMgrAddTable imdbMgr table with
      | none => .error .failed
      | some imdbMgr => imdbMgrDatabaseLoad imdbMgr recordsCapability rest

def isKey (field : Metric) : Bool := field.type.text = metricTypeKey

/-- A table as loading makes it and ingest keeps it: its meta record is full
and its key size has a slot for every key field. -/
structure Table.Loaded (table : Table) (metaRecord : Record) : Prop where
  described : table.metaRecord = some metaRecord
  full : metaRecord.metrics.length = metaRecord.metricsCapacity
  positive : 0 < metaRecord.metricsCapacity
  keySize : table.recordKeySize = 512 * metaRecord.metrics.countP isKey
  small : table.recordKeySize < 2 ^ 32
  consistent : table.Consistent

def DataBaseMgr.Loaded (mgr : DataBaseMgr) : Prop :=
  ∀ table ∈ mgr.tables, ∃ metaRecord, table.Loaded metaRecord

/-- Printing neither makes nor loses the type of a key field. -/
theorem ofText_expanded_key_iff {type : Bytes} (printable : Formattable type) :
    (CharArray.ofText 32 (expanded type)).text = metricTypeKey ↔ type = metricTypeKey := by
  constructor
  · intro same
    exact eq_of_take_expanded printable same (by decide) (by decide)
  · intro same
    subst same
    decide

theorem loadFields_spec {fields : List Field} {record after : Record} {keyNum keys : Nat}
    (loaded : loadFields fields record keyNum = .ok (after, keys))
    (counted : keyNum = record.metrics.countP isKey) :
    after.metrics.length = record.metrics.length + fields.length ∧
      after.metricsCapacity = record.metricsCapacity ∧ keys = after.metrics.countP isKey := by
  induction fields generalizing record keyNum with
  | nil =>
      simp only [loadFields, Except.ok.injEq, Prod.mk.injEq] at loaded
      obtain ⟨rfl, rfl⟩ := loaded
      exact ⟨rfl, rfl, counted⟩
  | cons field rest ih =>
      simp only [loadFields, metricCreate_eq, Outcome.bind_ok_iff] at loaded
      obtain ⟨metric, created, extended, added, more⟩ := loaded
      split at created
      · rename_i printable
        simp only [Except.ok.injEq] at created
        subst metric
        obtain ⟨capacity, metrics⟩ := recordAddMetric_ok added
        have typed := ofText_expanded_key_iff printable.2.2
        obtain ⟨length, sameCapacity, total⟩ := ih more (by
          rw [metrics, List.countP_append, ← counted, List.countP_singleton, isKey, Metric.printed]
          simp only [typed, decide_eq_true_eq]
          split
          · rfl
          · rfl)
        rw [metrics] at length
        simp only [List.length_append, List.length_cons, List.length_nil] at length ⊢
        exact ⟨by omega, sameCapacity.trans capacity, total⟩
      · contradiction

theorem imdbMgrTableLoad_loaded {name : Bytes} {capacity : Nat} {mm : Measurement} {table : Table}
    (loaded : imdbMgrTableLoad (tableCreate name capacity) mm = .ok table) :
    ∃ metaRecord, table.Loaded metaRecord := by
  have bounded := mm.bounded
  unfold imdbMgrTableLoad recordCreate at loaded
  split at loaded
  · contradiction
  · rename_i metaRecord created
    split at created
    · contradiction
    · simp only [Option.some.injEq] at created
      obtain ⟨⟨after, keyNum⟩, fields, stored⟩ := Outcome.bind_ok_iff.mp loaded
      have empty : metaRecord.metrics = [] := by rw [← created]
      have capacity : metaRecord.metricsCapacity = mm.fields.length := by rw [← created]
      obtain ⟨length, sameCapacity, total⟩ := loadFields_spec fields (by rw [empty]; rfl)
      rw [empty, List.length_nil, Nat.zero_add] at length
      have limited := List.countP_le_length (p := isKey) (l := after.metrics)
      have small : keyNum * 512 % 2 ^ 32 = 512 * after.metrics.countP isKey := by omega
      have stored : tableSetRecordKeySize (tableSetMeta (tableCreate name _) after) keyNum = table :=
        Except.ok.inj stored
      refine ⟨after, ?_⟩
      rw [← stored]
      exact {
        described := rfl
        full := by omega
        positive := by omega
        keySize := small
        small := by
          change keyNum * 512 % 2 ^ 32 < 2 ^ 32
          omega
        consistent := ⟨List.nodup_nil, Nat.zero_le _⟩ }

theorem imdbMgrDatabaseLoad_loaded {measurements : List Measurement} {mgr after : DataBaseMgr}
    {recordsCapability : Nat} (before : mgr.Loaded)
    (loaded : imdbMgrDatabaseLoad mgr recordsCapability measurements = .ok after) : after.Loaded := by
  induction measurements generalizing mgr with
  | nil =>
      simp only [imdbMgrDatabaseLoad, Except.ok.injEq] at loaded
      exact loaded ▸ before
  | cons mm rest ih =>
      simp only [imdbMgrDatabaseLoad, Outcome.bind_ok_iff] at loaded
      obtain ⟨table, tableLoaded, more⟩ := loaded
      split at more
      · contradiction
      · rename_i extended added
        refine ih ?_ more
        unfold dataBaseMgrAddTable at added
        split at added
        · contradiction
        · split at added
          · contradiction
          · simp only [Option.some.injEq] at added
            subst extended
            intro other member
            rcases List.mem_append.mp member with earlier | last
            · exact before other earlier
            · rw [List.mem_singleton.mp last]
              exact imdbMgrTableLoad_loaded tableLoaded

def sampleMetaRecord : Record :=
  sampleRecord "" [sampleMetric "key" "ip" "", sampleMetric "counter" "rx" ""]

def sampleLoadedTable : Table :=
  { sampleTable "link" [] with metaRecord := some sampleMetaRecord }

theorem sampleLoadedTable_loaded : sampleLoadedTable.Loaded sampleMetaRecord :=
  ⟨rfl, rfl, by decide, by decide, by decide, List.nodup_nil, by decide⟩

def sampleMgr : DataBaseMgr where
  tblsCapability := 256
  tables := [sampleLoadedTable]
  nodeInfo := { machineId := .ofText 40 (ascii "m"), hostName := .ofText 64 (ascii "h") }
  webServerOn := true

theorem sampleMgr_loaded : sampleMgr.Loaded := by
  intro table member
  rw [List.mem_singleton.mp member]
  exact ⟨sampleMetaRecord, sampleLoadedTable_loaded⟩

end GalaGopher.Imdb
