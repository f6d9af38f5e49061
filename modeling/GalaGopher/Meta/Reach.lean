import GalaGopher.Meta.Load
import GalaGopher.Ingress.Line

namespace GalaGopher.Meta

open GalaGopher.Text GalaGopher.Imdb GalaGopher.Ingress

/-! Whether the lines of a probe reach the table made from its measurement.

A name has 63 bytes in the loader and 31 in tables, metrics and lines. -/

/-- The texts of a field print without an argument. -/
def PrintableField (field : Field) : Prop :=
  Formattable field.name.text ∧ Formattable field.description.text ∧ Formattable field.type.text

instance (field : Field) : Decidable (PrintableField field) :=
  inferInstanceAs (Decidable (_ ∧ _ ∧ _))

def Printable (mm : Measurement) : Prop := ∀ field ∈ mm.fields, PrintableField field

instance (mm : Measurement) : Decidable (Printable mm) :=
  inferInstanceAs (Decidable (∀ field ∈ mm.fields, _))

def fieldMetric (field : Field) : Metric :=
  .printed field.name.text field.description.text field.type.text

/-- The table of a measurement whose fields all print. -/
def measurementTable (recordsCapability : Nat) (mm : Measurement) : Table where
  name := .ofText 32 mm.name.text
  metaRecord := some {
    key := []
    updateTime := 0
    metricsCapacity := mm.fields.length
    metrics := mm.fields.map fieldMetric
    within := Nat.le_of_eq (List.length_map ..) }
  recordsCapability
  recordKeySize := mm.fields.countP (fun field => field.type.text = metricTypeKey) * 512 % 2 ^ 32
  records := []

/-- One round of the loop, while there is room for the metric. -/
theorem loadFields_cons (field : Field) (rest : List Field) (record : Record) (keyNum : Nat)
    (room : record.metrics.length < record.metricsCapacity) :
    ∃ extended, extended.key = record.key ∧ extended.updateTime = record.updateTime ∧
      extended.metricsCapacity = record.metricsCapacity ∧
      extended.metrics = record.metrics ++ [fieldMetric field] ∧
      loadFields (field :: rest) record keyNum =
        if PrintableField field then
          loadFields rest extended (if field.type.text = metricTypeKey then keyNum + 1 else keyNum)
        else .error .undefined := by
  obtain ⟨extended, added, key, time, capacity, metrics⟩ := recordAddMetric_of_room (fieldMetric field) room
  refine ⟨extended, key, time, capacity, metrics, ?_⟩
  have created : metricCreate field.name.text field.description.text field.type.text =
      if PrintableField field then .ok (fieldMetric field) else .error .undefined := metricCreate_eq ..
  rw [loadFields, created]
  by_cases printable : PrintableField field
  · rw [if_pos printable, if_pos printable]
    show (recordAddMetric record (fieldMetric field) >>= _) = _
    rw [added]
    rfl
  · rw [if_neg printable, if_neg printable]
    rfl

theorem loadFields_printable {fields : List Field} {record : Record} {keyNum : Nat}
    (room : record.metrics.length + fields.length ≤ record.metricsCapacity)
    (printable : ∀ field ∈ fields, PrintableField field) :
    ∃ after, loadFields fields record keyNum =
        .ok (after, keyNum + fields.countP fun field => field.type.text = metricTypeKey) ∧
      after.key = record.key ∧ after.updateTime = record.updateTime ∧
      after.metricsCapacity = record.metricsCapacity ∧
      after.metrics = record.metrics ++ fields.map fieldMetric := by
  induction fields generalizing record keyNum with
  | nil => exact ⟨record, rfl, rfl, rfl, rfl, (List.append_nil _).symm⟩
  | cons field rest ih =>
      rw [List.length_cons] at room
      obtain ⟨extended, key, time, capacity, metrics, step⟩ := loadFields_cons field rest record keyNum (by omega)
      rw [if_pos (printable field (by simp))] at step
      have restRoom : extended.metrics.length + rest.length ≤ extended.metricsCapacity := by
        rw [metrics, capacity, List.length_append, List.length_singleton]
        omega
      obtain ⟨after, loaded, lastKey, lastTime, lastCapacity, lastMetrics⟩ :=
        ih restRoom fun other member => printable other (by simp [member])
      refine ⟨after, ?_, lastKey.trans key, lastTime.trans time, lastCapacity.trans capacity, ?_⟩
      · have counted : (if field.type.text = metricTypeKey then keyNum + 1 else keyNum) +
              rest.countP (fun field => field.type.text = metricTypeKey) =
            keyNum + (field :: rest).countP fun field => field.type.text = metricTypeKey := by
          rw [List.countP_cons]
          by_cases isKey : field.type.text = metricTypeKey
          · simp only [isKey, if_true, decide_true]
            omega
          · simp only [isKey, if_false, decide_false, Bool.false_eq_true]
            omega
        rw [step, loaded, counted]
      · rw [lastMetrics, metrics, List.append_assoc]
        rfl

theorem loadFields_unprintable {fields : List Field} {record : Record} {keyNum : Nat}
    (room : record.metrics.length + fields.length ≤ record.metricsCapacity)
    (unprintable : ¬ ∀ field ∈ fields, PrintableField field) :
    loadFields fields record keyNum = .error .undefined := by
  induction fields generalizing record keyNum with
  | nil => exact absurd (by simp) unprintable
  | cons field rest ih =>
      rw [List.length_cons] at room
      obtain ⟨extended, -, -, capacity, metrics, step⟩ := loadFields_cons field rest record keyNum (by omega)
      rw [step]
      split
      · rename_i printable
        apply ih
        · rw [metrics, capacity, List.length_append, List.length_singleton]
          omega
        · intro all
          refine unprintable fun other member => ?_
          rcases List.mem_cons.mp member with same | later
          · exact same ▸ printable
          · exact all other later
      · rfl

theorem imdbMgrTableLoad_eq (recordsCapability : Nat) (mm : Measurement) :
    imdbMgrTableLoad (tableCreate mm.name.text recordsCapability) mm =
      if mm.fields = [] then .error .failed
      else if Printable mm then .ok (measurementTable recordsCapability mm)
      else .error .undefined := by
  unfold imdbMgrTableLoad recordCreate
  by_cases bare : mm.fields = []
  · simp [bare]
  · have counted : mm.fields.length ≠ 0 := fun zero => bare (List.length_eq_zero_iff.mp zero)
    simp only [counted, bare, if_false]
    have room : ([] : List Metric).length + mm.fields.length ≤ mm.fields.length := by
      rw [List.length_nil, Nat.zero_add]
    by_cases printable : Printable mm
    · obtain ⟨after, loaded, key, time, capacity, metrics⟩ := @loadFields_printable mm.fields
        { key := [], updateTime := 0, metricsCapacity := mm.fields.length, metrics := []
          within := Nat.zero_le _ } 0 room printable
      have described : after = (measurementTable recordsCapability mm).metaRecord.get rfl :=
        Record.ext key time capacity metrics
      rw [loaded, if_pos printable, described, Nat.zero_add]
      rfl
    · rw [loadFields_unprintable room printable, if_neg printable]
      rfl

def tableNames (mgr : DataBaseMgr) : List Bytes := mgr.tables.map fun table => table.name.text

/-- Adding the table of a measurement fails. -/
def Refused (mgr : DataBaseMgr) (mm : Measurement) : Prop :=
  mgr.tables.length = mgr.tblsCapability ∨ mm.name.text.take 31 ∈ tableNames mgr

instance (mgr : DataBaseMgr) (mm : Measurement) : Decidable (Refused mgr mm) :=
  inferInstanceAs (Decidable (_ ∨ _))

def extend (mgr : DataBaseMgr) (recordsCapability : Nat) (mm : Measurement) : DataBaseMgr :=
  { mgr with tables := mgr.tables ++ [measurementTable recordsCapability mm] }

theorem imdbMgrDatabaseLoad_cons (mgr : DataBaseMgr) (recordsCapability : Nat) (mm : Measurement)
    (rest : List Measurement) :
    imdbMgrDatabaseLoad mgr recordsCapability (mm :: rest) =
      if mm.fields = [] then .error .failed
      else if Printable mm then
        if Refused mgr mm then .error .failed
        else imdbMgrDatabaseLoad (extend mgr recordsCapability mm) recordsCapability rest
      else .error .undefined := by
  have added : dataBaseMgrAddTable mgr (measurementTable recordsCapability mm) =
      if Refused mgr mm then none else some (extend mgr recordsCapability mm) := by
    have same (other : Table) : other.name = (measurementTable recordsCapability mm).name ↔
        other.name.text = mm.name.text.take 31 :=
      ⟨fun equal => congrArg CharArray.text equal, fun equal => CharArray.ext equal⟩
    unfold dataBaseMgrAddTable Refused
    by_cases full : mgr.tables.length = mgr.tblsCapability
    · simp only [full, if_true, true_or]
    · by_cases taken : mm.name.text.take 31 ∈ tableNames mgr
      · have found : (mgr.tables.any fun other => other.name = (measurementTable recordsCapability mm).name) = true := by
          obtain ⟨other, member, equal⟩ := List.mem_map.mp taken
          exact List.any_eq_true.mpr ⟨other, member, decide_eq_true ((same other).mpr equal)⟩
        simp only [full, found, taken, if_true, if_false, or_true]
      · have absent : (mgr.tables.any fun other => other.name = (measurementTable recordsCapability mm).name) = false := by
          rw [List.any_eq_false]
          intro other member equal
          exact taken (List.mem_map.mpr ⟨other, member, (same other).mp (of_decide_eq_true equal)⟩)
        simp only [full, absent, taken, if_false, or_self, Bool.false_eq_true]
        rfl
  rw [imdbMgrDatabaseLoad, imdbMgrTableLoad_eq]
  by_cases bare : mm.fields = []
  · simp only [bare, if_true]
    rfl
  · by_cases printable : Printable mm
    · simp only [bare, printable, if_true, if_false, bind, Except.bind, added]
      by_cases refused : Refused mgr mm
      · simp only [refused, if_true]
      · simp only [refused, if_false]
    · simp only [bare, printable, if_false]
      rfl

/-- The load fails at a measurement all of whose predecessors print: one
without fields, one too many, or one whose name agrees with an earlier one in
the bytes a table keeps. -/
def Rejected (mgr : DataBaseMgr) (measurements : List Measurement) : Prop :=
  ∃ earlier mm later, measurements = earlier ++ mm :: later ∧ (∀ other ∈ earlier, Printable other) ∧
    Printable mm ∧
    (mm.fields = [] ∨ mgr.tables.length + earlier.length = mgr.tblsCapability ∨
      mm.name.text.take 31 ∈ tableNames mgr ++ earlier.map fun other => other.name.text.take 31)

variable {mgr database : DataBaseMgr} {recordsCapability : Nat} {measurements earlier later : List Measurement}
  {mm : Measurement}

theorem tableNames_extend (mgr : DataBaseMgr) (recordsCapability : Nat) (mm : Measurement) :
    tableNames (extend mgr recordsCapability mm) = tableNames mgr ++ [mm.name.text.take 31] := by
  rw [tableNames, extend, List.map_append]
  rfl

theorem tables_extend_length (mgr : DataBaseMgr) (recordsCapability : Nat) (mm : Measurement) :
    (extend mgr recordsCapability mm).tables.length = mgr.tables.length + 1 :=
  List.length_append

theorem rejected_of_failed (failed : imdbMgrDatabaseLoad mgr recordsCapability measurements = .error .failed) :
    Rejected mgr measurements := by
  induction measurements generalizing mgr with
  | nil => cases failed
  | cons mm rest ih =>
      rw [imdbMgrDatabaseLoad_cons] at failed
      split at failed
      · rename_i bare
        have printable : Printable mm := by
          intro field member
          rw [bare] at member
          cases member
        exact ⟨[], mm, rest, rfl, by simp, printable, .inl bare⟩
      · split at failed
        · rename_i printable
          split at failed
          · rename_i refused
            refine ⟨[], mm, rest, rfl, by simp, printable, .inr ?_⟩
            simpa [Refused] using refused
          · obtain ⟨earlier, last, later, split, others, lastPrintable, reason⟩ := ih failed
            refine ⟨mm :: earlier, last, later, by rw [split]; rfl, ?_, lastPrintable, ?_⟩
            · intro other member
              rcases List.mem_cons.mp member with same | member
              · exact same ▸ printable
              · exact others other member
            · rw [tables_extend_length, tableNames_extend, List.append_assoc] at reason
              rw [List.length_cons, List.map_cons, ← Nat.add_assoc, Nat.add_right_comm]
              exact reason
        · cases failed

theorem failed_of_rejected (rejected : Rejected mgr measurements) :
    imdbMgrDatabaseLoad mgr recordsCapability measurements = .error .failed := by
  obtain ⟨earlier, mm, later, rfl, others, printable, reason⟩ := rejected
  induction earlier generalizing mgr with
  | nil =>
      rw [List.nil_append, imdbMgrDatabaseLoad_cons, if_pos printable]
      rcases reason with bare | reason
      · rw [if_pos bare]
      · have refused : Refused mgr mm := by simpa [Refused] using reason
        rw [if_pos refused, ite_self]
  | cons first earlier ih =>
      have step := @ih (extend mgr recordsCapability first) (fun other member => others other (by simp [member])) (by
        rw [tables_extend_length, tableNames_extend, List.append_assoc, Nat.add_right_comm, Nat.add_assoc]
        exact reason)
      rw [List.cons_append, imdbMgrDatabaseLoad_cons, if_pos (others first (by simp)), step, ite_self, ite_self]

theorem unprintable_of_undefined
    (undefined : imdbMgrDatabaseLoad mgr recordsCapability measurements = .error .undefined) :
    ∃ mm ∈ measurements, ¬ Printable mm := by
  induction measurements generalizing mgr with
  | nil => cases undefined
  | cons mm rest ih =>
      rw [imdbMgrDatabaseLoad_cons] at undefined
      split at undefined
      · cases undefined
      · split at undefined
        · split at undefined
          · cases undefined
          · obtain ⟨other, member, unprintable⟩ := ih undefined
            exact ⟨other, List.mem_cons_of_mem _ member, unprintable⟩
        · rename_i unprintable
          exact ⟨mm, List.mem_cons_self, unprintable⟩

/-- A load that succeeds appends the tables in order, and no table has the
name of one before it. -/
theorem loaded_tables (loaded : imdbMgrDatabaseLoad mgr recordsCapability measurements = .ok database) :
    database.tables = mgr.tables ++ measurements.map (measurementTable recordsCapability) ∧
      ∀ mm ∈ measurements, mm.fields ≠ [] ∧ Printable mm := by
  induction measurements generalizing mgr with
  | nil =>
      cases loaded
      exact ⟨(List.append_nil _).symm, by simp⟩
  | cons mm rest ih =>
      rw [imdbMgrDatabaseLoad_cons] at loaded
      split at loaded
      · cases loaded
      · rename_i fields
        split at loaded
        · rename_i printable
          split at loaded
          · cases loaded
          · obtain ⟨tables, others⟩ := ih loaded
            refine ⟨?_, ?_⟩
            · rw [tables, extend, List.append_assoc]
              rfl
            · intro other member
              rcases List.mem_cons.mp member with same | later
              · exact same ▸ ⟨fields, printable⟩
              · exact others other later
        · cases loaded

theorem loaded_fresh (loaded : imdbMgrDatabaseLoad mgr recordsCapability (earlier ++ mm :: later) = .ok database) :
    mm.name.text.take 31 ∉ tableNames mgr ++ earlier.map fun other => other.name.text.take 31 := by
  intro taken
  have printable := (loaded_tables loaded).2
  have rejected : Rejected mgr (earlier ++ mm :: later) :=
    ⟨earlier, mm, later, rfl, fun other member => (printable other (by simp [member])).2,
      (printable mm (by simp)).2, .inr (.inr taken)⟩
  rw [failed_of_rejected rejected] at loaded
  cases loaded

/-- Fields of different names have metrics of different names. -/
def KeepsNames (fields : List Field) (metrics : List Metric) : Prop :=
  ∀ (first second : Nat) (firstField secondField : Field) (firstMetric secondMetric : Metric),
    fields[first]? = some firstField → fields[second]? = some secondField →
    metrics[first]? = some firstMetric → metrics[second]? = some secondMetric →
    firstField.name ≠ secondField.name → firstMetric.name ≠ secondMetric.name

structure Reached (database : DataBaseMgr) (recordsCapability position : Nat) (mm : Measurement) : Prop where
  addressed : ∀ rest, ∃ tblName content,
    getTableNameAndContent (bar :: (mm.name.text ++ bar :: rest)) 32 = some (tblName, content) ∧
      dataBaseMgrFindTable database tblName = some position
  loaded : ∃ table metaRecord, database.tables[position]? = some table ∧
    imdbMgrTableLoad (tableCreate mm.name.text recordsCapability) mm = .ok table ∧
    table.metaRecord = some metaRecord ∧ metaRecord.metrics.length = mm.fields.length ∧
    KeepsNames mm.fields metaRecord.metrics

/-- The load fails, or every measurement is reached by the lines that name it. -/
structure ProbesReach (mgr : DataBaseMgr) (recordsCapability : Nat) (measurements : List Measurement) : Prop where
  defined : imdbMgrDatabaseLoad mgr recordsCapability measurements ≠ .error .undefined
  reached : ∀ database, imdbMgrDatabaseLoad mgr recordsCapability measurements = .ok database →
    ∀ earlier mm later, measurements = earlier ++ mm :: later →
      Reached database recordsCapability (mgr.tables.length + earlier.length) mm

/-- The texts of a measurement survive the shorter buffers.  A name longer than
31 bytes does so only if a bar cuts it there. -/
structure Fits (mm : Measurement) : Prop where
  printable : Printable mm
  nonempty : mm.name.text ≠ []
  cut : mm.name.text.takeWhile (· ≠ bar) = mm.name.text.take 31
  names : ∀ first ∈ mm.fields, ∀ second ∈ mm.fields, first.name ≠ second.name →
    (expanded first.name.text).take 31 ≠ (expanded second.name.text).take 31

theorem takeWhile_closed (name rest : Bytes) :
    (name ++ bar :: rest).takeWhile (· ≠ bar) = name.takeWhile (· ≠ bar) := by
  induction name with
  | nil => simp
  | cons byte name ih =>
      rw [List.cons_append, List.takeWhile_cons, List.takeWhile_cons, ih]

theorem dropWhile_closed (name rest : Bytes) : (name ++ bar :: rest).dropWhile (· ≠ bar) ≠ [] := by
  intro empty
  have all := List.dropWhile_eq_nil_iff.mp empty bar (by simp)
  simp at all

/-- What the splitter takes for the table name of a line. -/
theorem getTableNameAndContent_closed (name rest : Bytes) (size : Nat) :
    getTableNameAndContent (bar :: (name ++ bar :: rest)) size =
      if name.takeWhile (· ≠ bar) = [] then none
      else if (name.takeWhile (· ≠ bar)).length ≥ size then none
      else some (name.takeWhile (· ≠ bar), (name ++ bar :: rest).dropWhile (· ≠ bar)) := by
  simp only [getTableNameAndContent]
  rw [if_neg (by simp), takeWhile_closed, if_neg (dropWhile_closed name rest)]

theorem position_loaded
    (loaded : imdbMgrDatabaseLoad mgr recordsCapability (earlier ++ mm :: later) = .ok database) :
    database.tables[mgr.tables.length + earlier.length]? = some (measurementTable recordsCapability mm) := by
  rw [(loaded_tables loaded).1, List.getElem?_append_right (Nat.le_add_right ..), Nat.add_sub_cancel_left,
    List.getElem?_map, List.getElem?_append_right (Nat.le_refl _), Nat.sub_self]
  rfl

theorem findTable_loaded
    (loaded : imdbMgrDatabaseLoad mgr recordsCapability (earlier ++ mm :: later) = .ok database) (tblName : Bytes) :
    dataBaseMgrFindTable database tblName = some (mgr.tables.length + earlier.length) ↔
      tblName = mm.name.text.take 31 := by
  constructor
  · intro found
    obtain ⟨table, present, named⟩ := dataBaseMgrFindTable_some found
    rw [position_loaded loaded] at present
    cases present
    exact named.symm
  · intro same
    subst same
    have fresh := loaded_fresh loaded
    have before : (mgr.tables ++ earlier.map (measurementTable recordsCapability)).findIdx?
        (fun table => table.name.text = mm.name.text.take 31) = none := by
      rw [List.findIdx?_eq_none_iff]
      intro table member
      apply decide_eq_false
      intro equal
      apply fresh
      rcases List.mem_append.mp member with old | new
      · exact List.mem_append_left _ (List.mem_map.mpr ⟨table, old, equal⟩)
      · obtain ⟨other, present, rfl⟩ := List.mem_map.mp new
        exact List.mem_append_right _ (List.mem_map.mpr ⟨other, present, equal⟩)
    have tables : database.tables = (mgr.tables ++ earlier.map (measurementTable recordsCapability)) ++
        (measurementTable recordsCapability mm :: later.map (measurementTable recordsCapability)) := by
      rw [(loaded_tables loaded).1, List.map_append, List.map_cons, List.append_assoc]
    have here : decide ((measurementTable recordsCapability mm).name.text = mm.name.text.take 31) = true :=
      decide_eq_true rfl
    rw [dataBaseMgrFindTable, tables, List.findIdx?_append, before, List.findIdx?_cons, here]
    simp

theorem addressed_iff
    (loaded : imdbMgrDatabaseLoad mgr recordsCapability (earlier ++ mm :: later) = .ok database) :
    (∀ rest, ∃ tblName content,
        getTableNameAndContent (bar :: (mm.name.text ++ bar :: rest)) 32 = some (tblName, content) ∧
          dataBaseMgrFindTable database tblName = some (mgr.tables.length + earlier.length)) ↔
      mm.name.text ≠ [] ∧ mm.name.text.takeWhile (· ≠ bar) = mm.name.text.take 31 := by
  simp only [getTableNameAndContent_closed, findTable_loaded loaded]
  constructor
  · intro addressed
    obtain ⟨tblName, content, passes, found⟩ := addressed []
    split at passes
    · cases passes
    · rename_i nonempty
      split at passes
      · cases passes
      · cases passes
        refine ⟨?_, found⟩
        intro empty
        rw [empty] at nonempty
        exact nonempty rfl
  · intro given rest
    obtain ⟨nonempty, cut⟩ := given
    have notEmpty : ¬ mm.name.text.takeWhile (· ≠ bar) = [] := by
      rw [cut, List.take_eq_nil_iff]
      simp [nonempty]
    have short : ¬ (mm.name.text.takeWhile (· ≠ bar)).length ≥ 32 := by
      rw [cut, List.length_take]
      omega
    rw [if_neg notEmpty, if_neg short]
    exact ⟨_, _, rfl, cut⟩

theorem keepsNames_iff (fields : List Field) :
    KeepsNames fields (fields.map fieldMetric) ↔
      ∀ first ∈ fields, ∀ second ∈ fields, first.name ≠ second.name →
        (expanded first.name.text).take 31 ≠ (expanded second.name.text).take 31 := by
  constructor
  · intro keeps first firstMember second secondMember different same
    obtain ⟨i, firstAt⟩ := List.mem_iff_getElem?.mp firstMember
    obtain ⟨j, secondAt⟩ := List.mem_iff_getElem?.mp secondMember
    refine keeps i j first second (fieldMetric first) (fieldMetric second) firstAt secondAt ?_ ?_ different
      (CharArray.ext same)
    · rw [List.getElem?_map, firstAt]
      rfl
    · rw [List.getElem?_map, secondAt]
      rfl
  · intro kept i j first second firstMetric secondMetric firstAt secondAt firstMade secondMade different same
    rw [List.getElem?_map, firstAt, Option.map_some, Option.some.injEq] at firstMade
    rw [List.getElem?_map, secondAt, Option.map_some, Option.some.injEq] at secondMade
    subst firstMade secondMade
    exact kept first (List.mem_of_getElem? firstAt) second (List.mem_of_getElem? secondAt) different
      (congrArg CharArray.text same)

theorem reached_iff
    (loaded : imdbMgrDatabaseLoad mgr recordsCapability (earlier ++ mm :: later) = .ok database) :
    Reached database recordsCapability (mgr.tables.length + earlier.length) mm ↔ Fits mm := by
  obtain ⟨fields, printable⟩ := (loaded_tables loaded).2 mm (by simp)
  have position := position_loaded loaded
  have tableLoaded : imdbMgrTableLoad (tableCreate mm.name.text recordsCapability) mm =
      .ok (measurementTable recordsCapability mm) := by
    rw [imdbMgrTableLoad_eq, if_neg fields, if_pos printable]
  constructor
  · intro reached
    obtain ⟨nonempty, cut⟩ := (addressed_iff loaded).mp reached.addressed
    obtain ⟨table, metaRecord, present, -, described, -, keeps⟩ := reached.loaded
    rw [position] at present
    cases present
    cases described
    exact ⟨printable, nonempty, cut, (keepsNames_iff mm.fields).mp keeps⟩
  · intro fits
    exact {
      addressed := (addressed_iff loaded).mpr ⟨fits.nonempty, fits.cut⟩
      loaded := ⟨_, _, position, tableLoaded, rfl, List.length_map .., (keepsNames_iff mm.fields).mpr fits.names⟩ }

theorem probesReach_loaded (loaded : imdbMgrDatabaseLoad mgr recordsCapability measurements = .ok database) :
    ProbesReach mgr recordsCapability measurements ↔ ∀ mm ∈ measurements, Fits mm := by
  constructor
  · intro reaches mm member
    have reached := reaches.reached database loaded
    obtain ⟨earlier, later, split⟩ := List.append_of_mem member
    rw [split] at loaded
    exact (reached_iff loaded).mp (reached earlier mm later split)
  · intro fits
    constructor
    · rw [loaded]
      intro same
      cases same
    · intro other same earlier mm later split
      rw [loaded] at same
      cases same
      have fit := fits mm (by rw [split]; simp)
      rw [split] at loaded
      exact (reached_iff loaded).mpr fit

/-- Loaded measurements are reached by their probes exactly when the load is
rejected or all their texts fit. -/
theorem probesReach_iff (mgr : DataBaseMgr) (recordsCapability : Nat) (mmMgr : MeasurementMgr) :
    ProbesReach mgr recordsCapability mmMgr.measurements ↔
      Rejected mgr mmMgr.measurements ∨ ∀ mm ∈ mmMgr.measurements, Fits mm := by
  cases outcome : imdbMgrDatabaseLoad mgr recordsCapability mmMgr.measurements with
  | error fault =>
      cases fault with
      | failed =>
          refine iff_of_true ?_ (.inl (rejected_of_failed outcome))
          constructor
          · rw [outcome]
            intro same
            cases same
          · intro database loaded
            rw [outcome] at loaded
            cases loaded
      | undefined =>
          refine iff_of_false ?_ ?_
          · intro reaches
            exact reaches.defined outcome
          · intro given
            rcases given with rejected | fits
            · rw [failed_of_rejected rejected] at outcome
              cases outcome
            · obtain ⟨mm, member, unprintable⟩ := unprintable_of_undefined outcome
              exact unprintable (fits mm member).printable
  | ok database =>
      rw [probesReach_loaded outcome]
      constructor
      · exact .inr
      · intro given
        rcases given with rejected | fits
        · rw [failed_of_rejected rejected] at outcome
          cases outcome
        · exact fits

def sampleFieldConfig : FieldConfig :=
  ⟨some (ascii "id of the container"), some (ascii "key"), some (ascii "container_id")⟩

/-- A measurement whose name has 33 bytes. -/
def sampleLongConfig : MeasurementConfig :=
  ⟨some (ascii "container_filesystem_io_latencies"), some [sampleFieldConfig]⟩

def sampleLongMeasurement : Measurement where
  name := .ofText 64 (ascii "container_filesystem_io_latencies")
  fields := [(fieldLoad sampleFieldConfig).1]
  bounded := by decide

def sampleEmptyMgr : DataBaseMgr := { sampleMgr with tables := [] }

theorem long_name_is_not_reached :
    (measurementMgrLoad (measurementMgrCreate 256 128) [[sampleLongConfig]]).map MeasurementMgr.measurements =
        .ok [sampleLongMeasurement] ∧
      ¬ ProbesReach sampleEmptyMgr 1024 [sampleLongMeasurement] := by
  refine ⟨rfl, ?_⟩
  intro reaches
  have loaded : imdbMgrDatabaseLoad sampleEmptyMgr 1024 [sampleLongMeasurement] =
      .ok (extend sampleEmptyMgr 1024 sampleLongMeasurement) := by
    have bare : ¬ sampleLongMeasurement.fields = [] := List.cons_ne_nil _ _
    have printable : Printable sampleLongMeasurement := by
      intro field member
      rw [List.mem_singleton.mp member]
      exact ⟨.of_percent_free (by decide), .of_percent_free (by decide), .of_percent_free (by decide)⟩
    have refused : ¬ Refused sampleEmptyMgr sampleLongMeasurement := by decide
    rw [imdbMgrDatabaseLoad_cons, if_neg bare, if_pos printable, if_neg refused]
    rfl
  have fits := (probesReach_loaded loaded).mp reaches sampleLongMeasurement (List.mem_singleton_self _)
  exact absurd fits.cut (by decide)

end GalaGopher.Meta
