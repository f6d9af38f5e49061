import GalaGopher.Imdb.Fill

namespace GalaGopher.Imdb

open GalaGopher.Text GalaGopher.Data

variable {metaRecord : Record} {keySize position : Nat} {mgr : DataBaseMgr} {table : Table} {now : Int}
  {values : List Bytes} {name content recordStr : Bytes} {rest tokens : List Bytes}

/-- The value a metric keeps of a token. -/
def storedValue (value : Bytes) : Bytes := (expanded value).take 511

def Record.filled (metaRecord : Record) (keySize : Nat) (values : List Bytes) : Record where
  key := keyBuffer keySize (keyValues (metaRecord.metrics.zip values))
  updateTime := 0
  metricsCapacity := metaRecord.metricsCapacity
  metrics := (metaRecord.metrics.zip values).map fun pair => pair.1.holding pair.2
  within := by
    have := metaRecord.within
    rw [List.length_map, List.length_zip]
    omega

theorem Record.filled_key (metaRecord : Record) (keySize : Nat) (values : List Bytes) :
    (metaRecord.filled keySize values).key = keyBuffer keySize (keyValues (metaRecord.metrics.zip values)) := rfl

theorem Record.filled_metrics (metaRecord : Record) (keySize : Nat) (values : List Bytes) :
    (metaRecord.filled keySize values).metrics =
      (metaRecord.metrics.zip values).map fun pair => pair.1.holding pair.2 := rfl

theorem zip_take_left (fields : List Metric) (values : List Bytes) :
    fields.zip (values.take fields.length) = fields.zip values := by
  induction fields generalizing values with
  | nil => rfl
  | cons field rest ih =>
      cases values with
      | nil => rfl
      | cons value others =>
          rw [List.length_cons, List.take_succ_cons, List.zip_cons_cons, List.zip_cons_cons, ih]

/-- As many values as there are fields, as they are stored. -/
def storedValues (fields : List Metric) (values : List Bytes) : List Bytes :=
  (values.take fields.length).map storedValue

theorem holding_congr {field : Metric} {first second : Bytes} (same : storedValue first = storedValue second) :
    field.holding first = field.holding second := by
  have arrays : CharArray.ofText 512 (expanded first) = CharArray.ofText 512 (expanded second) :=
    CharArray.ext same
  rw [Metric.holding, Metric.holding, arrays]

theorem keySlot_congr {first second : Bytes} (same : storedValue first = storedValue second) :
    keySlot first = keySlot second := by
  simp only [storedValue] at same
  rw [keySlot, keySlot, same]

theorem filled_congr {first second : List Bytes} {fields : List Metric}
    (same : storedValues fields first = storedValues fields second) :
    ((fields.zip first).map fun pair => pair.1.holding pair.2) =
        (fields.zip second).map (fun pair => pair.1.holding pair.2) ∧
      (keyValues (fields.zip first)).map keySlot = (keyValues (fields.zip second)).map keySlot := by
  induction fields generalizing first second with
  | nil => exact ⟨rfl, rfl⟩
  | cons field rest ih =>
      cases first with
      | nil =>
          cases second with
          | nil => exact ⟨rfl, rfl⟩
          | cons value others => simp [storedValues] at same
      | cons value others =>
          cases second with
          | nil => simp [storedValues] at same
          | cons token tokens =>
              simp only [storedValues, List.length_cons, List.take_succ_cons, List.map_cons,
                List.cons.injEq] at same
              obtain ⟨metrics, keys⟩ := ih same.2
              simp only [List.zip_cons_cons, List.map_cons, metrics, holding_congr same.1, true_and]
              simp only [keyValues, List.filter_cons] at keys ⊢
              split
              · simp only [List.map_cons, keys, keySlot_congr same.1]
              · exact keys

/-- Two lists of values make the same record exactly when the same is stored
of them. -/
theorem filled_eq_iff {first second : List Bytes} :
    metaRecord.filled keySize first = metaRecord.filled keySize second ↔
      storedValues metaRecord.metrics first = storedValues metaRecord.metrics second := by
  constructor
  · intro same
    have metrics := congrArg Record.metrics same
    rw [Record.filled_metrics, Record.filled_metrics] at metrics
    have stored : ∀ values, ((metaRecord.metrics.zip values).map fun pair => pair.1.holding pair.2).map
        (fun metric => metric.val.text) = storedValues metaRecord.metrics values := by
      intro values
      have texts : (metaRecord.metrics.zip (values.take metaRecord.metrics.length)).map Prod.snd =
          values.take metaRecord.metrics.length := List.map_snd_zip (List.length_take_le _ _)
      rw [storedValues, ← texts, ← zip_take_left, List.map_map, List.map_map]
      rfl
    rw [← stored, ← stored, metrics]
  · intro same
    obtain ⟨metrics, keys⟩ := filled_congr same
    apply Record.ext
    · have length := congrArg List.length keys
      rw [List.length_map, List.length_map] at length
      rw [Record.filled_key, Record.filled_key, keyBuffer, keyBuffer, length, List.flatMap_def,
        List.flatMap_def, keys]
    · rfl
    · rfl
    · exact metrics

/-- The values become a record, stored unless the table refuses its key;
`none` is an execution without meaning. -/
def insertValues (mgr : DataBaseMgr) (position : Nat) (table : Table) (metaRecord : Record)
    (values : List Bytes) (now : Int) : Option (Option Record × DataBaseMgr) :=
  if Printable (metaRecord.metrics.zip values) then
    let record := metaRecord.filled table.recordKeySize values
    if table.Refuses record.key then some (none, mgr)
    else some (some (recordUpdateTime record now), mgr.setTable position
      (table.withRecords (KeyedList.put Record.key (recordUpdateTime record now) table.records)))
  else none

theorem keyValues_zip_length (fields : List Metric) (values : List Bytes) :
    (keyValues (fields.zip values)).length ≤ fields.countP isKey := by
  induction fields generalizing values with
  | nil => simp [keyValues]
  | cons field rest ih =>
      cases values with
      | nil => simp [keyValues]
      | cons value others =>
          have tail := ih others
          simp only [keyValues, List.length_map] at tail ⊢
          rw [List.zip_cons_cons, List.filter_cons, List.countP_cons]
          split
          · rw [List.length_cons]
            omega
          · omega

/-- A fresh record of a loaded table takes any list of values. -/
theorem Table.Loaded.fills (loaded : table.Loaded metaRecord) (keyed : table.recordKeySize ≠ 0)
    (values : List Bytes) :
    ∃ fresh, recordCreateWithKey metaRecord.metricsCapacity table.recordKeySize = some fresh ∧
      fillAll true (metaRecord.metrics.zip values) 0 fresh =
        if Printable (metaRecord.metrics.zip values) then
          .ok (metaRecord.filled table.recordKeySize values)
        else .error .undefined := by
  have positive := loaded.positive
  have slots := keyValues_zip_length metaRecord.metrics values
  have keySize := loaded.keySize
  let fresh : Record :=
    { key := List.replicate table.recordKeySize 0, updateTime := 0
      metricsCapacity := metaRecord.metricsCapacity, metrics := [], within := Nat.zero_le _ }
  have created : recordCreateWithKey metaRecord.metricsCapacity table.recordKeySize = some fresh := by
    rw [recordCreateWithKey, if_neg keyed, recordCreate, if_neg (by omega)]
    rfl
  have room : HasRoom table.recordKeySize [] (metaRecord.metrics.zip values) fresh := {
    small := loaded.small
    key := by simp [fresh, keyBuffer]
    metrics := by
      have := metaRecord.within
      simp only [fresh, List.length_nil, List.length_zip]
      omega
    slots := by
      rw [List.nil_append]
      omega }
  refine ⟨fresh, created, ?_⟩
  split
  · rename_i printable
    obtain ⟨after, filled, key, time, capacity, metrics⟩ := fillAll_printable room printable
    have same : after = metaRecord.filled table.recordKeySize values := by
      apply Record.ext
      · exact key
      · exact time
      · exact capacity
      · exact metrics
    rw [← same]
    exact filled
  · rename_i unprintable
    exact fillAll_unprintable room unprintable

theorem Table.Loaded.fills_created {fresh : Record} (loaded : table.Loaded metaRecord)
    (created : recordCreateWithKey metaRecord.metricsCapacity table.recordKeySize = some fresh) :
    fillAll true (metaRecord.metrics.zip values) 0 fresh =
      if Printable (metaRecord.metrics.zip values) then .ok (metaRecord.filled table.recordKeySize values)
      else .error .undefined := by
  have keyed : table.recordKeySize ≠ 0 := by
    intro zero
    rw [recordCreateWithKey, if_pos zero] at created
    cases created
  obtain ⟨other, sameCreated, filled⟩ := loaded.fills keyed values
  rw [created, Option.some.injEq] at sameCreated
  rw [sameCreated]
  exact filled

/-- What the parser leaves of a content that prints. -/
theorem parsed_of_printable {fresh : Record} (loaded : table.Loaded metaRecord)
    (created : recordCreateWithKey metaRecord.metricsCapacity table.recordKeySize = some fresh)
    (printable : Printable (metaRecord.metrics.zip (contentValues (content.splitOn bar)))) :
    dataBaseMgrParseContent metaRecord fresh content true =
      .ok (metaRecord.filled table.recordKeySize (contentValues (content.splitOn bar))) := by
  rw [dataBaseMgrParseContent, parseTokens_eq, loaded.fills_created created, if_pos printable]

/-- Adding the filled record to its table is the insertion. -/
theorem insertValues_of_printable (stored : mgr.tables[position]? = some table)
    (consistent : table.Consistent) (printable : Printable (metaRecord.metrics.zip values)) :
    insertValues mgr position table metaRecord values now =
      let record := metaRecord.filled table.recordKeySize values
      some (if (tableAddRecord table record now).1 = 0 then some (recordUpdateTime record now) else none,
        mgr.setTable position (tableAddRecord table record now).2) := by
  simp only [insertValues, printable, if_true]
  by_cases refused : table.Refuses (metaRecord.filled table.recordKeySize values).key
  · rw [if_pos refused, consistent.add_refused now refused, DataBaseMgr.setTable_self stored]
    rfl
  · rw [if_neg refused, consistent.add_accepted now refused]
    rfl

theorem insertValues_of_unprintable (unprintable : ¬ Printable (metaRecord.metrics.zip values)) :
    insertValues mgr position table metaRecord values now = none := by
  rw [insertValues, if_neg unprintable]

theorem dataBaseMgrCreateRec_eq (stored : mgr.tables[position]? = some table)
    (loaded : table.Loaded metaRecord) (keyed : table.recordKeySize ≠ 0) :
    dataBaseMgrCreateRec mgr position content now =
      insertValues mgr position table metaRecord (contentValues (content.splitOn bar)) now := by
  obtain ⟨fresh, created, filled⟩ := loaded.fills keyed (contentValues (content.splitOn bar))
  simp only [dataBaseMgrCreateRec, stored, loaded.described, created, dataBaseMgrParseContent,
    parseTokens_eq, filled]
  by_cases printable : Printable (metaRecord.metrics.zip (contentValues (content.splitOn bar)))
  · rw [insertValues_of_printable stored loaded.consistent printable]
    simp only [printable, if_true]
    split
    · rfl
    · rename_i succeeded
      rw [if_pos (not_not.mp succeeded)]
  · rw [insertValues_of_unprintable printable]
    simp only [printable, if_false]

/-- The first token that can name a table, and the tokens after it. -/
def tableToken : List Bytes → Option (Bytes × List Bytes)
  | [] => none
  | token :: rest => if token = [] ∨ token = [newline] then tableToken rest else some (token, rest)

theorem tableToken_ne (found : tableToken tokens = some (name, rest)) : name ≠ [] ∧ name ≠ [newline] := by
  induction tokens with
  | nil => simp [tableToken] at found
  | cons token others ih =>
      simp only [tableToken] at found
      split at found
      · exact ih found
      · rename_i named
        simp only [Option.some.injEq, Prod.mk.injEq] at found
        rw [← found.1]
        exact not_or.mp named

theorem addRecordTokens_cons (mgr : DataBaseMgr) (token : Bytes) (rest : List Bytes) :
    addRecordTokens mgr (token :: rest) =
      if token = [] then addRecordTokens mgr rest
      else if token = [newline] then addRecordTokens mgr rest
      else
        match dataBaseMgrFindTable mgr token with
        | none => .error .failed
        | some position =>
            match mgr.tables[position]? with
            | none => .error .undefined
            | some table =>
                if table.recordKeySize = 0 then .error .failed
                else
                  match table.metaRecord with
                  | none => .error .undefined
                  | some metaRecord =>
                      match recordCreateWithKey metaRecord.metricsCapacity table.recordKeySize with
                      | none => .error .failed
                      | some record => do
                          let record ← addRecordFields metaRecord.metrics rest 0 0 record
                          return some (position, table, record) := rfl

theorem addRecordTokens_eq (mgr : DataBaseMgr) (tokens : List Bytes) :
    addRecordTokens mgr tokens =
      match tableToken tokens with
      | none => .ok none
      | some (name, rest) => addRecordTokens mgr (name :: rest) := by
  induction tokens with
  | nil => rfl
  | cons token others ih =>
      by_cases blank : token = [] ∨ token = [newline]
      · rw [tableToken, if_pos blank, ← ih]
        rcases blank with empty | last
        · simp [addRecordTokens_cons, empty]
        · simp [addRecordTokens_cons, last]
      · rw [tableToken, if_neg blank]

theorem dataBaseMgrAddRecord_nameless (nameless : tableToken (recordStr.splitOn bar) = none) :
    dataBaseMgrAddRecord mgr recordStr now = none := by
  rw [dataBaseMgrAddRecord, addRecordTokens_eq, nameless]

theorem dataBaseMgrAddRecord_unknown (named : tableToken (recordStr.splitOn bar) = some (name, rest))
    (unknown : dataBaseMgrFindTable mgr name = none) :
    dataBaseMgrAddRecord mgr recordStr now = some (-1, mgr) := by
  have names := tableToken_ne named
  simp only [dataBaseMgrAddRecord]
  rw [addRecordTokens_eq, named]
  simp only [addRecordTokens_cons, names.1, names.2, if_false, unknown]

theorem dataBaseMgrAddRecord_unkeyed (named : tableToken (recordStr.splitOn bar) = some (name, rest))
    (found : dataBaseMgrFindTable mgr name = some position) (stored : mgr.tables[position]? = some table)
    (unkeyed : table.recordKeySize = 0) : dataBaseMgrAddRecord mgr recordStr now = some (-1, mgr) := by
  have names := tableToken_ne named
  simp only [dataBaseMgrAddRecord]
  rw [addRecordTokens_eq, named]
  simp only [addRecordTokens_cons, names.1, names.2, if_false, found, stored, unkeyed, if_true]

/-- The `int` an insertion answers. -/
def insertionCode (inserted : Option Record × DataBaseMgr) : Int × DataBaseMgr :=
  (if inserted.1.isSome then 0 else -1, inserted.2)

theorem dataBaseMgrAddRecord_eq (named : tableToken (recordStr.splitOn bar) = some (name, rest))
    (found : dataBaseMgrFindTable mgr name = some position) (stored : mgr.tables[position]? = some table)
    (loaded : table.Loaded metaRecord) (keyed : table.recordKeySize ≠ 0) :
    dataBaseMgrAddRecord mgr recordStr now =
      (insertValues mgr position table metaRecord (recordValues rest) now).map insertionCode := by
  obtain ⟨fresh, created, filled⟩ := loaded.fills keyed (recordValues rest)
  have names := tableToken_ne named
  simp only [dataBaseMgrAddRecord]
  rw [addRecordTokens_eq, named]
  simp only [addRecordTokens_cons, names.1, names.2, if_false, found, stored, keyed,
    loaded.described, created, addRecordFields_eq, List.drop_zero, filled]
  by_cases printable : Printable (metaRecord.metrics.zip (recordValues rest))
  · rw [insertValues_of_printable stored loaded.consistent printable]
    simp only [printable, if_true, pure, Except.pure, bind, Except.bind, Option.map_some, insertionCode]
    split
    · rfl
    · rename_i succeeded
      rw [if_pos (not_not.mp succeeded)]
      rfl
  · rw [insertValues_of_unprintable printable]
    simp only [printable, if_false, bind, Except.bind, Option.map_none]

/-- Inserting keeps every table loaded and, where it stores nothing, every
table as it was. -/
theorem insertValues_kept {inserted : Option Record × DataBaseMgr} (before : mgr.Loaded)
    (loaded : table.Loaded metaRecord)
    (taken : insertValues mgr position table metaRecord values now = some inserted) :
    inserted.2.Loaded ∧ (inserted.1 = none → inserted.2 = mgr) := by
  simp only [insertValues] at taken
  split at taken
  · split at taken
    · simp only [Option.some.injEq] at taken
      subst inserted
      exact ⟨before, fun _ => rfl⟩
    · rename_i accepted
      simp only [Option.some.injEq] at taken
      subst inserted
      refine ⟨?_, by simp⟩
      intro other member
      rcases List.mem_or_eq_of_mem_set member with earlier | rfl
      · exact before other earlier
      · have kept := loaded.consistent.add (metaRecord.filled table.recordKeySize values) now
        rw [loaded.consistent.add_accepted now accepted] at kept
        exact ⟨metaRecord, loaded.described, loaded.full, loaded.positive, loaded.keySize, loaded.small, kept⟩
  · contradiction

/-- A record handed out stands in its table as the newest. -/
theorem insertValues_stored {record : Record} {after : DataBaseMgr}
    (taken : insertValues mgr position table metaRecord values now = some (some record, after)) :
    after = mgr.setTable position (table.withRecords (KeyedList.put Record.key record table.records)) := by
  simp only [insertValues] at taken
  split at taken
  · split at taken
    · simp at taken
    · simp only [Option.some.injEq, Prod.mk.injEq] at taken
      rw [← taken.2, taken.1]
  · contradiction

/-- The call returns, a refusal leaves all records in place, and a line
without a name is refused. -/
def RejectsCleanly (mgr : DataBaseMgr) (recordStr : Bytes) (now : Int) : Prop :=
  ∃ ret after, dataBaseMgrAddRecord mgr recordStr now = some (ret, after) ∧
    (ret = -1 → after.tables.map Table.records = mgr.tables.map Table.records) ∧
    (tableToken (recordStr.splitOn bar) = none → ret = -1)

/-- A token names a table, and what the call is to print for the fields of
that table, if there is one with a key, can be printed. -/
def NamesPrintable (mgr : DataBaseMgr) (recordStr : Bytes) : Prop :=
  ∃ name rest, tableToken (recordStr.splitOn bar) = some (name, rest) ∧
    ∀ position table metaRecord, dataBaseMgrFindTable mgr name = some position →
      mgr.tables[position]? = some table → table.recordKeySize ≠ 0 →
      table.metaRecord = some metaRecord → Printable (metaRecord.metrics.zip (recordValues rest))

theorem dataBaseMgrAddRecord_rejects_cleanly_iff (mgr : DataBaseMgr) (loaded : mgr.Loaded)
    (recordStr : Bytes) (now : Int) :
    RejectsCleanly mgr recordStr now ↔ NamesPrintable mgr recordStr := by
  constructor
  · intro given
    obtain ⟨ret, after, returned, -⟩ := given
    cases named : tableToken (recordStr.splitOn bar) with
    | none =>
        rw [dataBaseMgrAddRecord_nameless named] at returned
        contradiction
    | some token =>
        obtain ⟨name, rest⟩ := token
        refine ⟨name, rest, named, ?_⟩
        intro position table metaRecord found stored keyed described
        obtain ⟨other, tableLoaded⟩ := loaded table (List.mem_of_getElem? stored)
        have same : other = metaRecord := by
          have := tableLoaded.described
          rw [described] at this
          exact (Option.some.inj this).symm
        subst other
        rw [dataBaseMgrAddRecord_eq named found stored tableLoaded keyed] at returned
        apply not_not.mp
        intro unprintable
        rw [insertValues_of_unprintable unprintable] at returned
        contradiction
  · intro given
    obtain ⟨name, rest, named, printable⟩ := given
    have nameless : tableToken (recordStr.splitOn bar) = none → ∀ ret : Int, ret = -1 := by
      rw [named]
      simp
    cases found : dataBaseMgrFindTable mgr name with
    | none => exact ⟨-1, mgr, dataBaseMgrAddRecord_unknown named found, fun _ => rfl, fun _ => rfl⟩
    | some position =>
        obtain ⟨table, stored, -⟩ := dataBaseMgrFindTable_some found
        by_cases keyed : table.recordKeySize = 0
        · exact ⟨-1, mgr, dataBaseMgrAddRecord_unkeyed named found stored keyed, fun _ => rfl, fun _ => rfl⟩
        · obtain ⟨metaRecord, tableLoaded⟩ := loaded table (List.mem_of_getElem? stored)
          have prints := printable position table metaRecord found stored keyed tableLoaded.described
          obtain ⟨outcome, inserted⟩ : ∃ outcome,
              insertValues mgr position table metaRecord (recordValues rest) now = some outcome :=
            ⟨_, insertValues_of_printable stored tableLoaded.consistent prints⟩
          have kept := insertValues_kept loaded tableLoaded inserted
          refine ⟨(insertionCode outcome).1, (insertionCode outcome).2, ?_, ?_, fun none => nameless none _⟩
          · rw [dataBaseMgrAddRecord_eq named found stored tableLoaded keyed, inserted]
            rfl
          · intro failed
            have nothing := kept.2 (by
              simp only [insertionCode] at failed
              split at failed
              · contradiction
              · rename_i absent
                simpa using absent)
            exact congrArg (fun mgr => mgr.tables.map Table.records) nothing

def sampleFresh : Record where
  key := List.replicate 512 0
  updateTime := 0
  metricsCapacity := 2
  metrics := []
  within := Nat.zero_le _

theorem sampleFresh_created :
    recordCreateWithKey sampleMetaRecord.metricsCapacity sampleLoadedTable.recordKeySize = some sampleFresh := rfl

theorem sampleFresh_parsed {values : List Bytes} (read : contentValues (content.splitOn bar) = values)
    (free : ∀ value ∈ values, percent ∉ value) :
    dataBaseMgrParseContent sampleMetaRecord sampleFresh content true = .ok (sampleMetaRecord.filled 512 values) := by
  subst values
  refine parsed_of_printable sampleLoadedTable_loaded sampleFresh_created (.of_percent_free ?_)
  have fields : ∀ field ∈ sampleMetaRecord.metrics,
      percent ∉ field.name.text ∧ percent ∉ field.description.text ∧ percent ∉ field.type.text := by decide
  intro pair member
  obtain ⟨fieldMember, valueMember⟩ := List.of_mem_zip member
  exact ⟨fields pair.1 fieldMember, free pair.2 valueMember⟩

/-- Lines in which every token is skipped end in a table pointer that was
never set. -/
theorem dataBaseMgrAddRecord_without_name :
    ¬ RejectsCleanly sampleMgr (ascii "") 0 ∧ ¬ RejectsCleanly sampleMgr (ascii "|") 0 ∧
      ¬ RejectsCleanly sampleMgr (ascii "||") 0 ∧ ¬ RejectsCleanly sampleMgr (ascii "||\n") 0 := by
  have crashes : ∀ recordStr, tableToken (recordStr.splitOn bar) = none →
      ¬ RejectsCleanly sampleMgr recordStr 0 := by
    intro recordStr nameless rejects
    obtain ⟨ret, after, returned, -⟩ := rejects
    rw [dataBaseMgrAddRecord_nameless nameless] at returned
    contradiction
  exact ⟨crashes _ (by decide), crashes _ (by decide), crashes _ (by decide), crashes _ (by decide)⟩

theorem dataBaseMgrAddRecord_rejects_cleanly_link :
    RejectsCleanly sampleMgr (ascii "|link|10.0.0.1|7|") 5 ↔
      NamesPrintable sampleMgr (ascii "|link|10.0.0.1|7|") :=
  dataBaseMgrAddRecord_rejects_cleanly_iff sampleMgr sampleMgr_loaded _ 5

end GalaGopher.Imdb
