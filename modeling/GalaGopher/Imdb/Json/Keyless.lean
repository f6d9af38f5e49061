import GalaGopher.Imdb.Insertion
import GalaGopher.Imdb.Json

namespace GalaGopher.Imdb

open GalaGopher.Text

/-! The web server does not show in what Kafka gets.

With it on, the JSON is made from the record that was stored; with it off, from
one parsed without a key. -/

variable {pairs : List (Metric × Bytes)} {field : Metric} {value content : Bytes} {keyIdx : Nat}
  {record after keyless metaRecord : Record} {mgr : DataBaseMgr} {position : Nat} {table : Table} {now : Int}

/-- What a key does not touch of a record. -/
structure SameMetrics (keyless record : Record) : Prop where
  capacity : keyless.metricsCapacity = record.metricsCapacity
  metrics : keyless.metrics = record.metrics

theorem SameMetrics.add {metric : Metric} (same : SameMetrics keyless record)
    (added : recordAddMetric record metric = .ok after) :
    ∃ grown, recordAddMetric keyless metric = .ok grown ∧ SameMetrics grown after := by
  obtain ⟨capacity, metrics⟩ := recordAddMetric_ok added
  have room : record.metrics.length < record.metricsCapacity := by
    have bound := after.within
    rw [capacity, metrics, List.length_append, List.length_singleton] at bound
    exact bound
  rw [← same.metrics, ← same.capacity] at room
  obtain ⟨grown, accepted, -, -, grownCapacity, grownMetrics⟩ := recordAddMetric_of_room metric room
  refine ⟨grown, accepted, ?_, ?_⟩
  · rw [grownCapacity, capacity, same.capacity]
  · rw [grownMetrics, metrics, same.metrics]

theorem SameMetrics.appendKey (same : SameMetrics keyless record)
    (appended : recordAppendKey record keyIdx value = .ok after) : SameMetrics keyless after := by
  obtain ⟨capacity, metrics⟩ := recordAppendKey_kept appended
  exact ⟨same.capacity.trans capacity.symm, same.metrics.trans metrics.symm⟩

theorem SameMetrics.fillMetric {nextIdx : Nat} (other : Nat) (same : SameMetrics keyless record)
    (filled : fillMetric true field keyIdx record value = .ok (after, nextIdx)) :
    ∃ grown, Imdb.fillMetric false field other keyless value = .ok (grown, other) ∧
      SameMetrics grown after := by
  simp only [Imdb.fillMetric, Outcome.bind_ok_iff] at filled
  obtain ⟨made, created, metric, valued, stored, added, keyed⟩ := filled
  obtain ⟨grown, accepted, sameGrown⟩ := same.add added
  refine ⟨grown, ?_, ?_⟩
  · simp only [Imdb.fillMetric, Outcome.bind_ok_iff]
    exact ⟨made, created, metric, valued, grown, accepted, rfl⟩
  · split at keyed
    · rw [Outcome.bind_ok_iff] at keyed
      obtain ⟨last, appended, same⟩ := keyed
      cases same
      exact sameGrown.appendKey appended
    · cases keyed
      exact sameGrown

theorem SameMetrics.fillAll (other : Nat) (same : SameMetrics keyless record)
    (filled : fillAll true pairs keyIdx record = .ok after) :
    ∃ grown, Imdb.fillAll false pairs other keyless = .ok grown ∧ SameMetrics grown after := by
  induction pairs generalizing record keyless keyIdx with
  | nil =>
      cases filled
      exact ⟨keyless, rfl, same⟩
  | cons pair rest ih =>
      obtain ⟨field, value⟩ := pair
      rw [fillAll_cons, Outcome.bind_ok_iff] at filled
      obtain ⟨⟨middle, nextIdx⟩, first, more⟩ := filled
      obtain ⟨keylessMiddle, keylessFirst, sameMiddle⟩ := same.fillMetric other first
      obtain ⟨grown, keylessMore, sameGrown⟩ := ih sameMiddle more
      refine ⟨grown, ?_, sameGrown⟩
      rw [fillAll_cons, keylessFirst]
      exact keylessMore

/-- Content that parses with the key parses without it. -/
theorem SameMetrics.parseContent (same : SameMetrics keyless record)
    (parsed : dataBaseMgrParseContent metaRecord record content true = .ok after) :
    ∃ grown, dataBaseMgrParseContent metaRecord keyless content false = .ok grown ∧
      SameMetrics grown after := by
  rw [dataBaseMgrParseContent, parseTokens_eq] at parsed
  obtain ⟨grown, filled, sameGrown⟩ := same.fillAll 0 parsed
  refine ⟨grown, ?_, sameGrown⟩
  rw [dataBaseMgrParseContent, parseTokens_eq]
  exact filled

/-- Only the name of the table and the metrics go into the JSON. -/
theorem table2Json_congr {stored : Table} (nodeInfo : NodeInfo) (jsonStrLen : Nat)
    (name : stored.name = table.name) (metrics : keyless.metrics = record.metrics) :
    table2Json nodeInfo stored keyless jsonStrLen now = table2Json nodeInfo table record jsonStrLen now := by
  unfold table2Json evt2Json record2Json getEvtVal
  rw [name, metrics]

theorem tableAddRecord_name (table : Table) (record : Record) (now : Int) :
    (tableAddRecord table record now).2.name = table.name := by
  rw [tableAddRecord_eq]
  split
  · rfl
  · rfl

theorem tableAddRecord_stores (accepted : (tableAddRecord table record now).1 = 0) :
    recordUpdateTime record now ∈ (tableAddRecord table record now).2.records := by
  rw [tableAddRecord_eq] at accepted ⊢
  split at accepted
  · cases accepted
  · rename_i room
    rw [if_neg room]
    exact List.mem_append_right _ (List.mem_singleton_self _)

/-- What a successful `IMDB_DataBaseMgrCreateRec` went through. -/
theorem dataBaseMgrCreateRec_some {stored : Record} {extended : DataBaseMgr}
    (created : dataBaseMgrCreateRec mgr position content now = some (some stored, extended)) :
    ∃ table metaRecord fresh record storedTable, mgr.tables[position]? = some table ∧
      table.metaRecord = some metaRecord ∧
      recordCreateWithKey metaRecord.metricsCapacity table.recordKeySize = some fresh ∧
      dataBaseMgrParseContent metaRecord fresh content true = .ok record ∧
      extended.tables[position]? = some storedTable ∧ storedTable.name = table.name ∧
      stored ∈ storedTable.records ∧ extended.nodeInfo = mgr.nodeInfo ∧ stored.metrics = record.metrics := by
  unfold dataBaseMgrCreateRec at created
  split at created
  · cases created
  · rename_i table found
    split at created
    · cases created
    · rename_i metaRecord described
      split at created
      · cases created
      · rename_i fresh blank
        split at created
        · cases created
        · cases created
        · rename_i record parsed
          simp only at created
          split at created
          · cases created
          · rename_i accepted
            cases created
            exact ⟨table, metaRecord, fresh, record, _, found, described, blank, parsed,
              DataBaseMgr.setTable_found found, tableAddRecord_name table record now,
              tableAddRecord_stores (not_not.mp accepted), rfl, rfl⟩

/-- Whatever the buffer and the clock, the stored record and the content give
one answer. -/
theorem rec2Json_without_webServer {stored : Record} {extended : DataBaseMgr}
    (created : dataBaseMgrCreateRec mgr position content now = some (some stored, extended)) :
    ∃ table storedTable, mgr.tables[position]? = some table ∧ extended.tables[position]? = some storedTable ∧
      stored ∈ storedTable.records ∧ ∀ (jsonStrLen : Nat) (clock : Int),
        rec2Json extended.nodeInfo storedTable (some stored) content jsonStrLen clock =
          rec2Json mgr.nodeInfo table none content jsonStrLen clock := by
  obtain ⟨table, metaRecord, fresh, record, storedTable, found, described, blank, parsed, storedFound, name,
    member, node, metrics⟩ := dataBaseMgrCreateRec_some created
  refine ⟨table, storedTable, found, storedFound, member, ?_⟩
  intro jsonStrLen clock
  obtain ⟨keyless, keylessBlank, same⟩ : ∃ keyless,
      recordCreate metaRecord.metricsCapacity = some keyless ∧ SameMetrics keyless fresh := by
    rw [recordCreateWithKey] at blank
    split at blank
    · cases blank
    · obtain ⟨keyless, made, same⟩ := Option.map_eq_some_iff.mp blank
      subst fresh
      exact ⟨keyless, made, rfl, rfl⟩
  obtain ⟨grown, keylessParsed, sameGrown⟩ := same.parseContent parsed
  have left : rec2Json extended.nodeInfo storedTable (some stored) content jsonStrLen clock =
      table2Json mgr.nodeInfo storedTable stored jsonStrLen clock := by
    rw [node]
    rfl
  have right : rec2Json mgr.nodeInfo table none content jsonStrLen clock =
      table2Json mgr.nodeInfo table grown jsonStrLen clock := by
    simp only [rec2Json, described, keylessBlank, keylessParsed]
    rfl
  rw [left, right]
  exact table2Json_congr mgr.nodeInfo jsonStrLen name (metrics.trans sameGrown.metrics.symm)

theorem rec2Json_without_webServer_link : ∃ stored extended table storedTable,
    dataBaseMgrCreateRec sampleMgr 0 (ascii "|10.0.0.1|7|") 5 = some (some stored, extended) ∧
      sampleMgr.tables[0]? = some table ∧ extended.tables[0]? = some storedTable ∧
      stored ∈ storedTable.records ∧ ∀ (jsonStrLen : Nat) (clock : Int),
        rec2Json extended.nodeInfo storedTable (some stored) (ascii "|10.0.0.1|7|") jsonStrLen clock =
          rec2Json sampleMgr.nodeInfo table none (ascii "|10.0.0.1|7|") jsonStrLen clock := by
  have created : dataBaseMgrCreateRec sampleMgr 0 (ascii "|10.0.0.1|7|") 5 =
      insertValues sampleMgr 0 sampleLoadedTable sampleMetaRecord
        (contentValues ((ascii "|10.0.0.1|7|").splitOn bar)) 5 :=
    dataBaseMgrCreateRec_eq rfl sampleLoadedTable_loaded (by decide)
  have printable : Printable (sampleMetaRecord.metrics.zip
      (contentValues ((ascii "|10.0.0.1|7|").splitOn bar))) := .of_percent_free (by decide)
  have roomy (key : Bytes) : ¬ sampleLoadedTable.Refuses key := by
    unfold Table.Refuses
    intro refused
    exact absurd refused.2 (by decide)
  simp only [insertValues, printable, roomy, if_true, if_false] at created
  obtain ⟨table, storedTable, given⟩ := rec2Json_without_webServer created
  exact ⟨_, _, table, storedTable, created, given⟩

end GalaGopher.Imdb
