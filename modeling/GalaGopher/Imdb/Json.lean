import GalaGopher.Imdb.Ingest
import GalaGopher.Imdb.Prometheus

namespace GalaGopher.Imdb

open GalaGopher.Text

/-! The JSON sent to Kafka.

A conversion that answers 0 is the text it leaves in the buffer.  What a failed
one leaves there is not read. -/

/-- The text written so far and the `int` the source keeps for the room. -/
structure JsonCursor where
  text : Bytes
  maxLen : Int
deriving DecidableEq, Repr

/-- What `snprintf` leaves of a text when it is handed an `int` for the size:
a negative one is taken for a very large one. -/
def written (maxLen : Int) (text : Bytes) : Bytes :=
  if maxLen < 0 then text else text.take (maxLen - 1).toNat

/-- One `snprintf` of `IMDB_Record2Json` and the tests behind it.  A length no
`int` can hold is answered with an error, and the subtraction can overflow. -/
def jsonAppend (cursor : JsonCursor) (text : Bytes) : Outcome JsonCursor :=
  let maxLen := cursor.maxLen - text.length
  if 2 ^ 31 ≤ text.length then .error .failed
  else if maxLen < -2 ^ 31 then .error .undefined
  else if maxLen < 0 then .error .failed
  else .ok { text := cursor.text ++ written cursor.maxLen text, maxLen }

def jsonPair (pair : Bytes × Bytes) : Bytes :=
  ascii ", \"" ++ pair.1 ++ ascii "\": \"" ++ pair.2 ++ ascii "\""

def appendPairs : List (Bytes × Bytes) → JsonCursor → Outcome JsonCursor
  | [], cursor => .ok cursor
  | pair :: rest, cursor => do
      let cursor ← jsonAppend cursor (jsonPair pair)
      appendPairs rest cursor

def metricPair (metric : Metric) : Bytes × Bytes := (metric.name.text, metric.val.text)

/-- The answer of the last `snprintf` is 1 whether or not it had room. -/
def record2Json (nodeInfo : NodeInfo) (table : Table) (record : Record) (jsonStrLen : Nat) (now : Int) :
    Outcome Bytes := do
  let cursor : JsonCursor := { text := [], maxLen := toInt32 jsonStrLen }
  let cursor ← jsonAppend cursor (ascii "\x7b\"timestamp\": " ++ decimal (now * 1000))
  let cursor ← jsonAppend cursor (jsonPair (ascii "machine_id", nodeInfo.machineId.text))
  let cursor ← jsonAppend cursor (jsonPair (ascii "hostname", nodeInfo.hostName.text))
  let cursor ← jsonAppend cursor (jsonPair (ascii "table_name", table.name.text))
  let cursor ← appendPairs (record.metrics.map metricPair) cursor
  return cursor.text ++ written cursor.maxLen (ascii "\x7d")

def getEvtVal (record : Record) (metricsName : Bytes) : Option Bytes :=
  (record.metrics.find? fun metric => metric.name.text = metricsName).map fun metric => metric.val.text

/-- `__snprintf` at the cursor. -/
def eventAppend (cursor : JsonCursor) (text : Bytes) : Outcome JsonCursor :=
  match cursorSnprintf cursor.maxLen text with
  | none => .error .failed
  | some maxLen => .ok { text := cursor.text ++ text, maxLen }

/-- A `%s` between two texts.  Its argument is read once there is any room, and
NULL is no text. -/
def eventAppendText (cursor : JsonCursor) (before : Bytes) (argument : Option Bytes) (after : Bytes) :
    Outcome JsonCursor :=
  if cursor.maxLen ≤ 0 then .error .failed
  else
    match argument with
    | none => .error .undefined
    | some text => eventAppend cursor (before ++ text ++ after)

/-- The cursor found again from the length of the text. -/
def readdress (jsonStrLen : Nat) (cursor : JsonCursor) : JsonCursor :=
  { cursor with maxLen := toInt32 ((jsonStrLen + (2 ^ 32 - cursor.text.length % 2 ^ 32)) % 2 ^ 32) }

def buildTmStamp (cursor : JsonCursor) (now : Int) : Outcome JsonCursor :=
  eventAppend cursor (ascii "\"Timestamp\": \"" ++ decimal (now * 1000) ++ ascii "\"")

def entityIdText (nodeInfo : NodeInfo) (tblName entityId : Bytes) : Bytes :=
  tblName ++ ascii "_" ++ nodeInfo.machineId.text ++ ascii "_" ++ entityId

def buildEntityId (nodeInfo : NodeInfo) (tblName entityId : Option Bytes) (cursor : JsonCursor) :
    Outcome JsonCursor :=
  match tblName, entityId with
  | some tblName, some entityId => eventAppend cursor (entityIdText nodeInfo tblName entityId)
  | _, _ => .error .failed

def buildEventMetrics (tblName metricsName : Option Bytes) (cursor : JsonCursor) : Outcome JsonCursor :=
  match tblName, metricsName with
  | some tblName, some metricsName => eventAppend cursor (buildMetrics tblName metricsName)
  | _, _ => .error .failed

def evt2Json (nodeInfo : NodeInfo) (record : Record) (jsonStrLen : Nat) (now : Int) : Outcome Bytes := do
  let tblName := getEvtVal record (ascii "tblName")
  let entityId := getEvtVal record (ascii "EntityID")
  let metrics := getEvtVal record (ascii "metrics")
  let secTxt := getEvtVal record (ascii "SeverityText")
  let secNum := getEvtVal record (ascii "SeverityNumber")
  let body := getEvtVal record (ascii "Body")
  let cursor : JsonCursor := { text := [], maxLen := toInt32 jsonStrLen }
  let cursor ← eventAppend cursor (ascii "\x7b")
  let cursor ← buildTmStamp cursor now
  let cursor ← eventAppend (readdress jsonStrLen cursor) (ascii ", \"Attributes\": \x7b \"Entity ID\": \"")
  let cursor ← buildEntityId nodeInfo tblName entityId cursor
  let cursor ← eventAppend (readdress jsonStrLen cursor)
    (ascii "\",\x7d, \"Resource\": \x7b \"metrics\": \"")
  let cursor ← buildEventMetrics tblName metrics cursor
  let cursor ← eventAppendText (readdress jsonStrLen cursor) (ascii "\",\x7d, \"SeverityText\": \"") secTxt
    (ascii "\",")
  let cursor ← eventAppendText cursor (ascii "\"SeverityNumber\": ") secNum (ascii ",")
  let cursor ← eventAppendText cursor (ascii "\"Body\": \"") body (ascii "\"\x7d")
  return cursor.text

def table2Json (nodeInfo : NodeInfo) (table : Table) (record : Record) (jsonStrLen : Nat) (now : Int) :
    Outcome Bytes :=
  if table.name.text = ascii "event" then evt2Json nodeInfo record jsonStrLen now
  else record2Json nodeInfo table record jsonStrLen now

/-- Without a record the content is parsed into one that has no key. -/
def rec2Json (nodeInfo : NodeInfo) (table : Table) (record : Option Record) (dataStr : Bytes)
    (jsonStrLen : Nat) (now : Int) : Outcome Bytes :=
  match record with
  | some record => table2Json nodeInfo table record jsonStrLen now
  | none =>
      match table.metaRecord with
      | none => .error .undefined
      | some metaRecord =>
          match recordCreate metaRecord.metricsCapacity with
          | none => .error .failed
          | some record => do
              let record ← dataBaseMgrParseContent metaRecord record dataStr false
              table2Json nodeInfo table record jsonStrLen now

end GalaGopher.Imdb
