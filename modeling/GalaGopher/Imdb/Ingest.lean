import GalaGopher.Imdb.Table

namespace GalaGopher.Imdb

open GalaGopher.Text

/-- The body shared by the two token loops, from `IMDB_MetricCreate` to the
key append. -/
def fillMetric (needKey : Bool) (field : Metric) (keyIdx : Nat) (record : Record) (token : Bytes) :
    Outcome (Record × Nat) := do
  let metric ← metricCreate field.name.text field.description.text field.type.text
  let metric ← metricSetValue metric token
  let record ← recordAddMetric record metric
  if needKey && field.type.text = metricTypeKey then
    let record ← recordAppendKey record keyIdx token
    return (record, keyIdx + 1)
  else
    return (record, keyIdx)

/-- The loop of `IMDB_DataBaseMgrParseContent` over the tokens of `strsep`. -/
def parseTokens (needKey : Bool) (fields : List Metric) :
    List Bytes → (index keyIdx : Nat) → Record → Outcome Record
  | [], _, _, record => .ok record
  | token :: rest, index, keyIdx, record =>
      if token = [newline] then .ok record
      else if token = [] ∧ index = 0 then parseTokens needKey fields rest index keyIdx record
      else
        let token := if token = [] then invalidMetricValue else token
        match fields[index]? with
        | none => .ok record
        | some field => do
            let (record, keyIdx) ← fillMetric needKey field keyIdx record token
            parseTokens needKey fields rest (index + 1) keyIdx record

def dataBaseMgrParseContent (metaRecord : Record) (record : Record) (content : Bytes)
    (needKey : Bool) : Outcome Record :=
  parseTokens needKey metaRecord.metrics (content.splitOn bar) 0 0 record

/-- `none` is an execution without meaning; otherwise the record handle, or
NULL, and the database. -/
def dataBaseMgrCreateRec (mgr : DataBaseMgr) (position : Nat) (content : Bytes) (now : Int) :
    Option (Option Record × DataBaseMgr) :=
  match mgr.tables[position]? with
  | none => none
  | some table =>
      match table.metaRecord with
      | none => none
      | some metaRecord =>
          match recordCreateWithKey metaRecord.metricsCapacity table.recordKeySize with
          | none => some (none, mgr)
          | some record =>
              match dataBaseMgrParseContent metaRecord record content true with
              | .error .undefined => none
              | .error .failed => some (none, mgr)
              | .ok record =>
                  let (ret, table) := tableAddRecord table record now
                  if ret ≠ 0 then some (none, mgr.setTable position table)
                  else some (some (recordUpdateTime record now), mgr.setTable position table)

/-- The token loop of `IMDB_DataBaseMgrAddRecord` once the table is known. -/
def addRecordFields (fields : List Metric) :
    List Bytes → (index keyIdx : Nat) → Record → Outcome Record
  | [], _, _, record => .ok record
  | token :: rest, index, keyIdx, record =>
      let token := if token = [] then invalidMetricValue else token
      if token = [newline] then addRecordFields fields rest index keyIdx record
      else
        match fields[index]? with
        | none => .ok record
        | some field => do
            let (record, keyIdx) ← fillMetric true field keyIdx record token
            addRecordFields fields rest (index + 1) keyIdx record

/-- The whole token loop: the table and the record it leaves, or neither when
no token named a table. -/
def addRecordTokens (mgr : DataBaseMgr) : List Bytes → Outcome (Option (Nat × Table × Record))
  | [] => .ok none
  | token :: rest =>
      if token = [] then addRecordTokens mgr rest
      else if token = [newline] then addRecordTokens mgr rest
      else
        match dataBaseMgrFindTable mgr token with
        | none => .error .failed
        | some position =>
            match mgr.tables[position]? with
            | none => .error .undefined
            | some table =>
                if table.recordKeySize = 0 then .error .failed
                else
                  match table.metaRecord with
                  | none => .error .undefined
                  | some metaRecord =>
                      match recordCreateWithKey metaRecord.metricsCapacity table.recordKeySize with
                      | none => .error .failed
                      | some record => do
                          let record ← addRecordFields metaRecord.metrics rest 0 0 record
                          return some (position, table, record)

/-- `none` is an execution without meaning; otherwise the `int` returned and
the database.  After the loop table and record are used unconditionally, so a
line without a table name reads through a null pointer. -/
def dataBaseMgrAddRecord (mgr : DataBaseMgr) (recordStr : Bytes) (now : Int) :
    Option (Int × DataBaseMgr) :=
  match addRecordTokens mgr (recordStr.splitOn bar) with
  | .error .undefined => none
  | .error .failed => some (-1, mgr)
  | .ok none => none
  | .ok (some (position, table, record)) =>
      let (ret, table) := tableAddRecord table record now
      if ret ≠ 0 then some (-1, mgr.setTable position table)
      else some (0, mgr.setTable position table)

end GalaGopher.Imdb
