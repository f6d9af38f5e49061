import GalaGopher.Imdb.Prometheus.Page
import GalaGopher.Text.Exposition

namespace GalaGopher.Imdb

open GalaGopher.Text GalaGopher.Text.Exposition GalaGopher.Data

/-- One metric of a record, exported under the name of its table. -/
structure PageSample where
  tableName : Bytes
  record : Record
  metric : Metric
deriving DecidableEq

def sampleName (sample : PageSample) : Bytes := buildMetrics sample.tableName sample.metric.name.text

/-- The line of a sample, up to the newline it ends with. -/
def sampleBody (ctx : ScrapeContext) (sample : PageSample) : Bytes :=
  sampleName sample ++ labelText ctx sample.record ++ ascii " " ++ sample.metric.val.text ++ ascii " " ++
    decimal (ctx.now * 1000)

def recordSamples (tableName : Bytes) (record : Record) : List PageSample :=
  (record.metrics.filter metricTypeSatisfyPrometheus).map fun metric => { tableName, record, metric }

/-- The samples of a table's records that find room one behind the other. -/
def fittingSamples (ctx : ScrapeContext) (tableName : Bytes) : List Record → (room : Nat) → List PageSample
  | [], _ => []
  | record :: rest, room =>
      let fitting := takeFitting room (recordLines ctx tableName record)
      (recordSamples tableName record).take fitting.length ++
        fittingSamples ctx tableName rest (room - fitting.flatten.length)

def bodiesText (ctx : ScrapeContext) (samples : List PageSample) : Bytes :=
  (samples.map fun sample => sampleBody ctx sample ++ [newline]).flatten

def tableSamples (ctx : ScrapeContext) (table : Table) (room : Nat) : List PageSample :=
  fittingSamples ctx table.name.text (scheduled ctx table.records) room

def closing (table : Table) : Bytes := if table.records = [] then [] else [newline]

def pageSamples (ctx : ScrapeContext) : List Table → (room : Nat) → List PageSample
  | [], _ => []
  | table :: rest, room =>
      let samples := tableSamples ctx table room
      samples ++ pageSamples ctx rest (room - (bodiesText ctx samples ++ closing table).length)

variable {ctx : ScrapeContext} {tableName : Bytes} {records : List Record} {table : Table} {tables : List Table}
  {room index : Nat}

theorem recordLines_eq (ctx : ScrapeContext) (tableName : Bytes) (record : Record) :
    recordLines ctx tableName record =
      (recordSamples tableName record).map fun sample => sampleBody ctx sample ++ [newline] := by
  rw [recordLines, recordSamples, List.map_map]
  refine List.map_congr_left fun metric _ => ?_
  simp only [metricLine, metricTail, Function.comp, sampleBody, sampleName, List.append_assoc]

theorem takeFitting_bodies (ctx : ScrapeContext) (tableName : Bytes) (record : Record) (room : Nat) :
    (takeFitting room (recordLines ctx tableName record)).flatten =
      bodiesText ctx ((recordSamples tableName record).take
        (takeFitting room (recordLines ctx tableName record)).length) := by
  have front := List.prefix_iff_eq_take.mp (takeFitting_front room (recordLines ctx tableName record))
  rw [bodiesText, List.map_take, ← recordLines_eq, ← front]

theorem bodiesText_append (first later : List PageSample) :
    bodiesText ctx (first ++ later) = bodiesText ctx first ++ bodiesText ctx later := by
  rw [bodiesText, List.map_append, List.flatten_append]
  rfl

/-- What the record loop leaves is the text of the samples that fit. -/
theorem exportRecords_samples
    (finished : (exportRecords ctx tableName records room index).finished = true) :
    (exportRecords ctx tableName records room index).text =
      bodiesText ctx (fittingSamples ctx tableName
        ((records.filter (live ctx)).take (defaultPeriodRecordNum - index)) room) := by
  induction records generalizing room index with
  | nil => simp [exportRecords_nil, fittingSamples, bodiesText]
  | cons record rest ih =>
      by_cases full : index ≥ defaultPeriodRecordNum
      · have none : defaultPeriodRecordNum - index = 0 := by omega
        simp only [exportRecords_cons, full, if_true, none, List.take_zero]
        rfl
      · cases stale : expired ctx record with
        | true =>
            simp only [exportRecords_cons, full, stale, if_false, if_true] at finished ⊢
            rw [ih finished, List.filter_cons_of_neg (by simp [live, stale])]
        | false =>
            have more : defaultPeriodRecordNum - index = defaultPeriodRecordNum - (index + 1) + 1 := by omega
            simp only [exportRecords_cons, full, stale, if_false, Bool.false_eq_true] at finished ⊢
            split at finished
            · contradiction
            · rename_i written
              have text : rec2Prometheus ctx record room tableName =
                  (takeFitting room (recordLines ctx tableName record)).flatten := by
                rw [rec2Prometheus_eq] at written ⊢
                split
                · rfl
                · rename_i overfull
                  rw [if_neg overfull] at written
                  exact absurd rfl written
              rw [if_neg written, List.filter_cons_of_pos (by simp [live, stale]), more, List.take_succ_cons,
                fittingSamples, bodiesText_append, ← takeFitting_bodies, ← text, ← ih finished]

theorem tbl2Prometheus_samples
    (accepted : ¬ ((tbl2Prometheus ctx table room).ret < 0 ∨ (tbl2Prometheus ctx table room).ret ≥ room)) :
    (tbl2Prometheus ctx table room).text = bodiesText ctx (tableSamples ctx table room) ++ closing table := by
  by_cases empty : table.records = []
  · simp [tbl2Prometheus, hashRecordCount, empty, tableSamples, scheduled, fittingSamples, bodiesText, closing]
  · obtain ⟨finished, -, -, text⟩ := tbl2Prometheus_walked empty accepted
    rw [text, exportRecords_samples finished, closing, if_neg empty]
    rfl

theorem pageLines_table (ctx : ScrapeContext) (samples : List PageSample) (table : Table) (after : Bytes) :
    pageLines (bodiesText ctx samples ++ closing table ++ after) =
      (samples.flatMap fun sample => pageLines (sampleBody ctx sample)) ++ pageLines after := by
  have behind : pageLines (closing table ++ after) = pageLines after := by
    rw [closing]
    split
    · rfl
    · exact pageLines_append [] after
  have bodies : bodiesText ctx samples =
      ((samples.map (sampleBody ctx)).map fun body => body ++ [newline]).flatten := by
    rw [List.map_map]
    rfl
  rw [List.append_assoc, bodies, pageLines_closed, behind, List.flatMap_map]

/-- The lines of a successful page come from its samples. -/
theorem exportTables_lines (succeeded : (exportTables ctx tables room).ret = 0) :
    pageLines (exportTables ctx tables room).text =
      (pageSamples ctx tables room).flatMap fun sample => pageLines (sampleBody ctx sample) := by
  induction tables generalizing room with
  | nil => rfl
  | cons table rest ih =>
      simp only [exportTables] at succeeded ⊢
      split at succeeded
      · contradiction
      · rename_i accepted
        have text := tbl2Prometheus_samples accepted
        have length : (tbl2Prometheus ctx table room).ret.toNat = (tbl2Prometheus ctx table room).text.length := by
          rw [(tbl2Prometheus_accepted accepted).1]
          rfl
        have later := ih succeeded
        rw [if_neg accepted, pageSamples, List.flatMap_append, ← text, ← length, ← later]
        simp only [text]
        exact pageLines_table ..

end GalaGopher.Imdb
