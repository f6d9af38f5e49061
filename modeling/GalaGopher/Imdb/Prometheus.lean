import GalaGopher.Imdb.Table
import Mathlib.Algebra.Group.Int.Defs

namespace GalaGopher.Imdb

open GalaGopher.Text

/-! The Prometheus export of the database.

The buffer is written front to back, so what a function leaves in it is the
text before its cursor, and the number of bytes it answers is the length of
that text. -/

/-- What an export reads besides the tables: the node's names, `g_recordTimeout`
and the clock.  The source reads the clock again for every record and line; a
call is taken at one instant. -/
structure ScrapeContext where
  nodeInfo : NodeInfo
  recordTimeout : Nat
  now : Int
deriving DecidableEq, Repr

abbrev maxLabelsBufferSize : Nat := 512
abbrev defaultPeriodRecordNum : Nat := 100

/-- The `(int)` of a 32-bit unsigned value. -/
def toInt32 (value : Nat) : Int :=
  if value < 2 ^ 31 then value else value - 2 ^ 32

def decimal (value : Int) : Bytes := ascii (toString value)

def prometheusTypes : List Bytes :=
  [ascii "counter", ascii "gauge", ascii "histogram", ascii "summary"]

def metricTypeSatisfyPrometheus (metric : Metric) : Bool :=
  prometheusTypes.any fun type => metric.type.text = type

def metricTypeIsLabel (metric : Metric) : Bool :=
  [metricTypeLabel, metricTypeKey].any fun label => metric.type.text = label

/-- `__snprintf`: the room left after a text that fits with its terminator. -/
def cursorSnprintf (bufLen : Int) (text : Bytes) : Option Int :=
  if bufLen ≤ 0 then none
  else if (text.length : Int) ≥ bufLen then none
  else some (bufLen - text.length)

def buildMetrics (tblName metricsName : Bytes) : Bytes :=
  ascii "gala_gopher_" ++ tblName ++ ascii "_" ++ metricsName

/-- What follows the metric's name on its line. -/
def metricTail (ctx : ScrapeContext) (metric : Metric) (labels : Bytes) : Bytes :=
  labels ++ ascii " " ++ metric.val.text ++ ascii " " ++ decimal (ctx.now * 1000) ++ [newline]

def buildPrometheusMetrics (ctx : ScrapeContext) (metric : Metric) (maxLen : Nat)
    (tableName labels : Bytes) : Option Bytes := do
  let head := buildMetrics tableName metric.name.text
  let tail := metricTail ctx metric labels
  let size ← cursorSnprintf (toInt32 maxLen) head
  let _ ← cursorSnprintf size tail
  return head ++ tail

def labelPair (first : Bool) (metric : Metric) : Bytes :=
  (if first then [] else ascii ",") ++ metric.name.text ++ ascii "=\"" ++ metric.val.text ++ ascii "\""

def buildLabelPairs : List Metric → (first : Bool) → Int → Option (Bytes × Int)
  | [], _, size => some ([], size)
  | metric :: rest, first, size =>
      if metricTypeIsLabel metric then do
        let size ← cursorSnprintf size (labelPair first metric)
        let (text, size) ← buildLabelPairs rest false size
        return (labelPair first metric ++ text, size)
      else buildLabelPairs rest first size

def nodeLabels (nodeInfo : NodeInfo) : Bytes :=
  ascii ",machine_id=\"" ++ nodeInfo.machineId.text ++ ascii "\",hostname=\"" ++
    nodeInfo.hostName.text ++ ascii "\""

def buildPrometheusLabel (ctx : ScrapeContext) (record : Record) (maxLen : Nat) : Option Bytes := do
  let size ← cursorSnprintf maxLen (ascii "\x7b")
  let (pairs, size) ← buildLabelPairs record.metrics true size
  let size ← cursorSnprintf size (nodeLabels ctx.nodeInfo)
  let _ ← cursorSnprintf size (ascii "\x7d")
  return ascii "\x7b" ++ pairs ++ nodeLabels ctx.nodeInfo ++ ascii "\x7d"

/-- The lines of a record's metrics, up to the first that does not fit. -/
def exportMetrics (ctx : ScrapeContext) (tableName labels : Bytes) : List Metric → Nat → Bytes
  | [], _ => []
  | metric :: rest, curMaxLen =>
      if metricTypeSatisfyPrometheus metric then
        match buildPrometheusMetrics ctx metric curMaxLen tableName labels with
        | none => []
        | some line => line ++ exportMetrics ctx tableName labels rest (curMaxLen - line.length)
      else exportMetrics ctx tableName labels rest curMaxLen

def rec2Prometheus (ctx : ScrapeContext) (record : Record) (maxLen : Nat) (tableName : Bytes) : Bytes :=
  match buildPrometheusLabel ctx record maxLabelsBufferSize with
  | none => []
  | some labels => exportMetrics ctx tableName labels record.metrics maxLen

def expired (ctx : ScrapeContext) (record : Record) : Bool :=
  record.updateTime + ctx.recordTimeout < ctx.now

def live (ctx : ScrapeContext) (record : Record) : Bool := !expired ctx record

/-- Where the record loop of `IMDB_Tbl2Prometheus` ends: whether it ran to its
end, the text, the records exported and destroyed, and those still stored. -/
structure Walk where
  finished : Bool
  text : Bytes
  exported : List Record
  records : List Record
deriving DecidableEq, Repr

/-- An answer of 0 from `IMDB_Rec2Prometheus` is taken for an error, so the
test for a full buffer that follows it in the source is never reached. -/
def exportRecords (ctx : ScrapeContext) (tableName : Bytes) :
    List Record → (curMaxLen index : Nat) → Walk
  | [], _, _ => { finished := true, text := [], exported := [], records := [] }
  | record :: rest, curMaxLen, index =>
      if index ≥ defaultPeriodRecordNum then
        { finished := true, text := [], exported := [], records := record :: rest }
      else if expired ctx record then exportRecords ctx tableName rest curMaxLen index
      else
        let text := rec2Prometheus ctx record curMaxLen tableName
        if text.length = 0 then
          { finished := false, text := [], exported := [], records := record :: rest }
        else
          let later := exportRecords ctx tableName rest (curMaxLen - text.length) (index + 1)
          { later with text := text ++ later.text, exported := record :: later.exported }

structure TableScrape where
  ret : Int
  text : Bytes
  exported : List Record
  table : Table
deriving DecidableEq, Repr

def tbl2Prometheus (ctx : ScrapeContext) (table : Table) (maxLen : Nat) : TableScrape :=
  if hashRecordCount table.records = 0 then { ret := 0, text := [], exported := [], table }
  else
    let walk := exportRecords ctx table.name.text table.records maxLen 0
    let table := table.withRecords walk.records
    if walk.finished then
      -- `snprintf` answers 1 for the newline whether or not it had room for it
      let written := [newline].take (maxLen - walk.text.length - 1)
      { ret := walk.text.length + 1, text := walk.text ++ written, exported := walk.exported, table }
    else { ret := -1, text := walk.text, exported := walk.exported, table }

/-- `bufLen` is what the caller finds in `*buf_len`, which an error leaves
alone; exported records stand next to the name of their table. -/
structure DataBaseScrape where
  ret : Int
  bufLen : Nat
  text : Bytes
  exported : List (Bytes × Record)
  tables : List Table
deriving DecidableEq, Repr

def exportTables (ctx : ScrapeContext) : List Table → (curMaxLen : Nat) → DataBaseScrape
  | [], _ => { ret := 0, bufLen := 0, text := [], exported := [], tables := [] }
  | table :: rest, curMaxLen =>
      let scrape := tbl2Prometheus ctx table curMaxLen
      let exported := scrape.exported.map (table.name.text, ·)
      if scrape.ret < 0 ∨ scrape.ret ≥ curMaxLen then
        { ret := -1, bufLen := 0, text := scrape.text, exported, tables := scrape.table :: rest }
      else
        let later := exportTables ctx rest (curMaxLen - scrape.ret.toNat)
        { ret := later.ret
          bufLen := scrape.ret.toNat + later.bufLen
          text := scrape.text ++ later.text
          exported := exported ++ later.exported
          tables := scrape.table :: later.tables }

def dataBase2Prometheus (ctx : ScrapeContext) (tables : List Table) (maxLen : UInt32) :
    DataBaseScrape :=
  exportTables ctx tables maxLen.toNat

def sampleContext : ScrapeContext where
  nodeInfo := { machineId := .ofText 40 (ascii "m"), hostName := .ofText 64 (ascii "h") }
  recordTimeout := 60
  now := 1

end GalaGopher.Imdb
