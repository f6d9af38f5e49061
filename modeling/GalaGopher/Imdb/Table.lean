import GalaGopher.Data.KeyedList
import GalaGopher.Imdb.Record

namespace GalaGopher.Imdb

open GalaGopher.Text GalaGopher.Data

/-! Tables and the database manager.

The uthash of a table is the list of its records in insertion order, looked up
by the bytes of the key buffer.  Functions that return an `int` answer it next
to the state they leave. -/

structure Table where
  name : CharArray 32
  metaRecord : Option Record
  recordsCapability : Nat
  recordKeySize : Nat
  records : List Record
deriving DecidableEq, Repr

/-- The table after its hash was changed; nothing else of it ever is. -/
def Table.withRecords (table : Table) (records : List Record) : Table :=
  { table with records }

@[simp] theorem Table.withRecords_records (table : Table) (records : List Record) :
    (table.withRecords records).records = records := rfl

@[simp] theorem Table.withRecords_recordsCapability (table : Table) (records : List Record) :
    (table.withRecords records).recordsCapability = table.recordsCapability := rfl

@[simp] theorem Table.withRecords_name (table : Table) (records : List Record) :
    (table.withRecords records).name = table.name := rfl

def hashFindRecord (records : List Record) (record : Record) : Option Record :=
  KeyedList.find? Record.key record.key records

def hashDeleteRecord (records : List Record) (record : Record) : List Record :=
  KeyedList.remove Record.key record.key records

def hashAddRecord (records : List Record) (record : Record) : List Record :=
  records ++ [record]

def hashRecordCount (records : List Record) : Nat := records.length

def tableCreate (name : Bytes) (capacity : Nat) : Table where
  name := .ofText 32 name
  metaRecord := none
  recordsCapability := capacity
  recordKeySize := 0
  records := []

def tableSetMeta (table : Table) (metaRecord : Record) : Table :=
  { table with metaRecord := some metaRecord }

def tableSetRecordKeySize (table : Table) (keyNum : Nat) : Table :=
  { table with recordKeySize := keyNum * 512 % 2 ^ 32 }

/-- The old version leaves before the capacity is tested. -/
def tableAddRecord (table : Table) (record : Record) (now : Int) : Int × Table :=
  let records :=
    match hashFindRecord table.records record with
    | some oldRecord => hashDeleteRecord table.records oldRecord
    | none => table.records
  if hashRecordCount records ≥ table.recordsCapability then (-1, table.withRecords records)
  else (0, table.withRecords (hashAddRecord records (recordUpdateTime record now)))

structure NodeInfo where
  machineId : CharArray 40
  hostName : CharArray 64
deriving DecidableEq, Repr

structure DataBaseMgr where
  tblsCapability : Nat
  tables : List Table
  nodeInfo : NodeInfo
  webServerOn : Bool
deriving DecidableEq, Repr

def dataBaseMgrAddTable (mgr : DataBaseMgr) (table : Table) : Option DataBaseMgr :=
  if mgr.tables.length = mgr.tblsCapability then none
  else if mgr.tables.any fun other => other.name = table.name then none
  else some { mgr with tables := mgr.tables ++ [table] }

/-- A table pointer is its position in `mgr->tables`. -/
def dataBaseMgrFindTable (mgr : DataBaseMgr) (tableName : Bytes) : Option Nat :=
  mgr.tables.findIdx? fun table => table.name.text = tableName

def DataBaseMgr.setTable (mgr : DataBaseMgr) (position : Nat) (table : Table) : DataBaseMgr :=
  { mgr with tables := mgr.tables.set position table }

theorem DataBaseMgr.setTable_self {mgr : DataBaseMgr} {position : Nat} {table : Table}
    (found : mgr.tables[position]? = some table) : mgr.setTable position table = mgr := by
  obtain ⟨bound, rfl⟩ := List.getElem?_eq_some_iff.mp found
  simp [DataBaseMgr.setTable]

theorem DataBaseMgr.setTable_found {mgr : DataBaseMgr} {position : Nat} {old table : Table}
    (found : mgr.tables[position]? = some old) :
    (mgr.setTable position table).tables[position]? = some table := by
  obtain ⟨bound, -⟩ := List.getElem?_eq_some_iff.mp found
  simp [DataBaseMgr.setTable, bound]

theorem dataBaseMgrFindTable_some {mgr : DataBaseMgr} {tableName : Bytes} {position : Nat}
    (found : dataBaseMgrFindTable mgr tableName = some position) :
    ∃ table, mgr.tables[position]? = some table ∧ table.name.text = tableName := by
  obtain ⟨bound, named, -⟩ := List.findIdx?_eq_some_iff_getElem.mp found
  exact ⟨_, List.getElem?_eq_getElem bound, by simpa using named⟩

/-- What an add leaves, whatever the table holds: the old version is gone, and
the new one is appended when there is room. -/
theorem tableAddRecord_eq (table : Table) (record : Record) (now : Int) :
    tableAddRecord table record now =
      if (KeyedList.remove Record.key record.key table.records).length ≥ table.recordsCapability then
        (-1, table.withRecords (KeyedList.remove Record.key record.key table.records))
      else
        (0, table.withRecords
          (KeyedList.put Record.key (recordUpdateTime record now) table.records)) := by
  have removed : (match hashFindRecord table.records record with
      | some oldRecord => hashDeleteRecord table.records oldRecord
      | none => table.records) = KeyedList.remove Record.key record.key table.records := by
    cases found : hashFindRecord table.records record with
    | some oldRecord =>
        simp only [hashDeleteRecord, (KeyedList.find?_some found).2]
    | none =>
        exact (KeyedList.remove_of_absent (KeyedList.find?_eq_none_iff.mp found)).symm
  unfold tableAddRecord
  rw [removed]
  rfl

/-- The table refuses a record whose key it does not hold when it is full. -/
def Table.Refuses (table : Table) (key : Bytes) : Prop :=
  key ∉ table.records.map Record.key ∧ table.recordsCapability ≤ table.records.length

instance (table : Table) (key : Bytes) : Decidable (table.Refuses key) :=
  inferInstanceAs (Decidable (_ ∧ _))

/-- The store invariant: distinct keys, no more records than the capability. -/
structure Table.Consistent (table : Table) : Prop where
  distinct : KeyedList.Distinct Record.key table.records
  bounded : table.records.length ≤ table.recordsCapability

theorem Table.Consistent.refuses_iff {table : Table} (consistent : table.Consistent) {key : Bytes} :
    (KeyedList.remove Record.key key table.records).length ≥ table.recordsCapability ↔
      table.Refuses key := by
  have bounded := consistent.bounded
  by_cases present : key ∈ table.records.map Record.key
  · have shorter := KeyedList.remove_length present
    simp only [Table.Refuses, present, not_true_eq_false, false_and, iff_false]
    omega
  · simp [Table.Refuses, present, KeyedList.remove_of_absent present]

theorem Table.Consistent.add_refused {table : Table} (consistent : table.Consistent)
    {record : Record} (now : Int) (refused : table.Refuses record.key) :
    tableAddRecord table record now = (-1, table) := by
  rw [tableAddRecord_eq, if_pos (consistent.refuses_iff.mpr refused),
    KeyedList.remove_of_absent refused.1]
  rfl

theorem Table.Consistent.add_accepted {table : Table} (consistent : table.Consistent)
    {record : Record} (now : Int) (accepted : ¬ table.Refuses record.key) :
    tableAddRecord table record now =
      (0, table.withRecords
        (KeyedList.put Record.key (recordUpdateTime record now) table.records)) := by
  rw [tableAddRecord_eq, if_neg (mt consistent.refuses_iff.mp accepted)]

/-- Whether or not it succeeds, an add keeps the store invariant. -/
theorem Table.Consistent.add {table : Table} (consistent : table.Consistent)
    (record : Record) (now : Int) : (tableAddRecord table record now).2.Consistent := by
  by_cases refused : table.Refuses record.key
  · rw [consistent.add_refused now refused]
    exact consistent
  · rw [consistent.add_accepted now refused]
    have room := mt consistent.refuses_iff.mp refused
    exact {
      distinct := KeyedList.put_distinct consistent.distinct
      bounded := by
        simp only [Table.withRecords_records, Table.withRecords_recordsCapability, KeyedList.put,
          recordUpdateTime_key, List.length_append, List.length_singleton]
        omega }

/-- Records may leave a consistent table, as long as the rest keeps its order. -/
theorem Table.Consistent.drop {table : Table} (consistent : table.Consistent)
    {kept : List Record} (part : kept.Sublist table.records) :
    (table.withRecords kept).Consistent where
  distinct := consistent.distinct.sublist part
  bounded := Nat.le_trans part.length_le consistent.bounded

theorem tableCreate_consistent (name : Bytes) (capacity : Nat) :
    (tableCreate name capacity).Consistent where
  distinct := List.nodup_nil
  bounded := Nat.zero_le _

def sampleMetric (type name val : String) : Metric where
  description := .ofText 1024 []
  type := .ofText 32 (ascii type)
  name := .ofText 32 (ascii name)
  val := .ofText 512 (ascii val)

def sampleRecord (key : String) (metrics : List Metric) : Record where
  key := ascii key
  updateTime := 0
  metricsCapacity := metrics.length
  metrics
  within := Nat.le_refl _

def sampleTable (name : String) (records : List Record) : Table where
  name := .ofText 32 (ascii name)
  metaRecord := none
  recordsCapability := 1024
  recordKeySize := 512
  records

end GalaGopher.Imdb
