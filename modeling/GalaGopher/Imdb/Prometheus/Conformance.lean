import GalaGopher.Imdb.Insertion
import GalaGopher.Imdb.Json
import GalaGopher.Imdb.Prometheus.Samples

namespace GalaGopher.Imdb

open GalaGopher.Text GalaGopher.Text.Exposition GalaGopher.Data

def nodePairs (nodeInfo : NodeInfo) : List (Bytes × Bytes) :=
  [(ascii "machine_id", nodeInfo.machineId.text), (ascii "hostname", nodeInfo.hostName.text)]

/-- The labels a record is to be read with. -/
def sampleLabels (ctx : ScrapeContext) (record : Record) : List (Bytes × Bytes) :=
  (record.metrics.filter metricTypeIsLabel).map metricPair ++ nodePairs ctx.nodeInfo

/-- The line is a sample with these names, labels and time, and its value is a
number. -/
def ReadsAs (ctx : ScrapeContext) (line : Bytes) (sample : PageSample) : Prop :=
  IsSample line (sampleName sample) (sampleLabels ctx sample.record) (ctx.now * 1000)

/-- The lines of the answer that are not empty are its samples, one line
each. -/
def Conforms (ctx : ScrapeContext) (scrape : DataBaseScrape) (samples : List PageSample) : Prop :=
  List.Forall₂ (ReadsAs ctx) (pageLines (scrape.text.take scrape.bufLen)) samples

/-- A sample that can be pasted into a line: the record has a label, and no
part of the line needs escaping. -/
structure Expressible (ctx : ScrapeContext) (sample : PageSample) : Prop where
  labelled : ∃ metric ∈ sample.record.metrics, metricTypeIsLabel metric
  spells : Spells (sampleName sample) (sampleLabels ctx sample.record) sample.metric.val.text
  unbroken : newline ∉ sample.metric.val.text

variable {ctx : ScrapeContext} {sample : PageSample} {tables : List Table}

theorem labelPair_eq (first : Bool) (metric : Metric) :
    labelPair first metric = (if first then [] else [comma]) ++ pairText (metricPair metric) := by
  have opening : ascii "=\"" = [assign, quote] := rfl
  have closing : ascii "\"" = [quote] := rfl
  have separator : ascii "," = [comma] := rfl
  simp only [labelPair, pairText, metricPair, opening, closing, separator, List.append_assoc, List.cons_append,
    List.nil_append]

theorem labelPairs_later (metrics : List Metric) : labelPairs metrics false =
    ((metrics.filter metricTypeIsLabel).map metricPair).flatMap fun pair => comma :: pairText pair := by
  induction metrics with
  | nil => rfl
  | cons metric rest ih =>
      rw [labelPairs]
      split
      · rename_i labelled
        rw [labelPair_eq, ih, List.filter_cons_of_pos labelled, List.map_cons, List.flatMap_cons]
        rfl
      · rename_i unlabelled
        rw [ih, List.filter_cons_of_neg unlabelled]

/-- The first label is the one without a comma. -/
theorem labelPairs_first (metrics : List Metric) : labelPairs metrics true = (labelPairs metrics false).tail := by
  induction metrics with
  | nil => rfl
  | cons metric rest ih =>
      rw [labelPairs, labelPairs]
      split
      · rfl
      · exact ih

theorem nodeLabels_eq (nodeInfo : NodeInfo) :
    nodeLabels nodeInfo = (nodePairs nodeInfo).flatMap fun pair => comma :: pairText pair := by
  have machine : ascii ",machine_id=\"" = comma :: (ascii "machine_id" ++ [assign, quote]) := rfl
  have host : ascii "\",hostname=\"" = quote :: comma :: (ascii "hostname" ++ [assign, quote]) := rfl
  have closing : ascii "\"" = [quote] := rfl
  rw [nodeLabels, nodePairs, machine, host, closing]
  simp only [List.flatMap_cons, List.flatMap_nil, pairText, List.append_assoc, List.cons_append, List.nil_append]

def behindLabels (ctx : ScrapeContext) (metric : Metric) : Bytes :=
  32 :: (metric.val.text ++ 32 :: ascii (toString (ctx.now * 1000)))

theorem sampleBody_eq (ctx : ScrapeContext) (sample : PageSample) : sampleBody ctx sample =
    sampleName sample ++ openBrace :: (labelPairs sample.record.metrics true ++
      laterText (nodePairs ctx.nodeInfo) (behindLabels ctx sample.metric)) := by
  have space : ascii " " = [32] := rfl
  have opening : ascii "\x7b" = [openBrace] := rfl
  have closing : ascii "\x7d" = [closeBrace] := rfl
  simp only [sampleBody, labelText, nodeLabels_eq, behindLabels, laterText, decimal, space, opening, closing,
    List.append_assoc, List.cons_append, List.nil_append]

theorem sampleBody_unlabelled (unlabelled : (sample.record.metrics.filter metricTypeIsLabel).map metricPair = []) :
    ∃ text, sampleBody ctx sample = sampleName sample ++ openBrace :: comma :: text := by
  rw [sampleBody_eq, labelPairs_first, labelPairs_later, unlabelled]
  exact ⟨_, rfl⟩

theorem sampleBody_labelled {pair : Bytes × Bytes} {others : List (Bytes × Bytes)}
    (labelled : (sample.record.metrics.filter metricTypeIsLabel).map metricPair = pair :: others) :
    sampleBody ctx sample = sampleName sample ++ openBrace :: (pairText pair ++
      laterText (others ++ nodePairs ctx.nodeInfo) (behindLabels ctx sample.metric)) := by
  rw [sampleBody_eq, labelPairs_first, labelPairs_later, labelled, List.flatMap_cons, List.cons_append, List.tail_cons,
    List.append_assoc, laterText, laterText, List.flatMap_append, List.append_assoc]

/-- A record without labels leaves a comma behind the brace; any other line is
its sample exactly when its parts can be pasted. -/
theorem sampleBody_reads_iff : newline ∉ sampleBody ctx sample ∧ ReadsAs ctx (sampleBody ctx sample) sample ↔
    Expressible ctx sample := by
  cases shape : (sample.record.metrics.filter metricTypeIsLabel).map metricPair with
  | nil =>
      obtain ⟨text, body⟩ := @sampleBody_unlabelled ctx sample shape
      refine iff_of_false ?_ ?_
      · intro given
        rw [ReadsAs, body] at given
        exact leading_comma given.2
      · intro expressible
        obtain ⟨metric, member, labelled⟩ := expressible.labelled
        rw [List.map_eq_nil_iff, List.filter_eq_nil_iff] at shape
        exact shape metric member labelled
  | cons pair others =>
      have body := @sampleBody_labelled ctx sample pair others shape
      have labels : sampleLabels ctx sample.record = pair :: (others ++ nodePairs ctx.nodeInfo) := by
        rw [sampleLabels, shape, List.cons_append]
      rw [ReadsAs, labels, body, behindLabels]
      constructor
      · intro given
        obtain ⟨free, reads⟩ := given
        refine ⟨?_, labels ▸ sample_pasted.mp reads, ?_⟩
        · have present : pair ∈ (sample.record.metrics.filter metricTypeIsLabel).map metricPair :=
            shape ▸ List.mem_cons_self
          obtain ⟨metric, member, -⟩ := List.mem_map.mp present
          obtain ⟨member, labelled⟩ := List.mem_filter.mp member
          exact ⟨metric, member, labelled⟩
        · intro breaks
          apply free
          simp only [laterText, List.mem_append, List.mem_cons]
          tauto
      · intro expressible
        have spells := labels ▸ expressible.spells
        exact ⟨pasted_free spells expressible.unbroken, sample_pasted.mpr spells⟩

theorem sampleBody_opens (ctx : ScrapeContext) (sample : PageSample) : (sampleBody ctx sample).head? = some 103 := rfl

theorem sampleBody_closes (ctx : ScrapeContext) (sample : PageSample) :
    ∃ closing, (sampleBody ctx sample).getLast? = some closing ∧ closing ≠ newline := by
  have nonempty := printed_ne_nil (ctx.now * 1000)
  refine ⟨(ascii (toString (ctx.now * 1000))).getLast nonempty, ?_, ?_⟩
  · rw [sampleBody, decimal, List.getLast?_append_of_ne_nil _ nonempty]
    exact List.getLast?_eq_some_getLast nonempty
  · intro breaks
    exact printed_free (by decide : ¬ (newline = 45 ∨ isDigit newline)) _ (breaks ▸ List.getLast_mem nonempty)

theorem pageLines_body_iff :
    (∃ line, pageLines (sampleBody ctx sample) = [line] ∧ ReadsAs ctx line sample) ↔ Expressible ctx sample := by
  obtain ⟨closing, closes, visible⟩ := sampleBody_closes ctx sample
  have single (line : Bytes) := @pageLines_single_iff _ line _ _ (sampleBody_opens ctx sample) closes ⟨by decide, visible⟩
  rw [← sampleBody_reads_iff]
  constructor
  · intro given
    obtain ⟨line, alone, reads⟩ := given
    obtain ⟨free, rfl⟩ := (single line).mp alone
    exact ⟨free, reads⟩
  · intro given
    exact ⟨_, (single _).mpr ⟨given.1, rfl⟩, given.2⟩

/-- A successful page is in the text format exactly when each of its samples
can be pasted into a line. -/
theorem dataBase2Prometheus_conforms_iff (ctx : ScrapeContext) (tables : List Table) (maxLen : UInt32)
    (succeeded : (dataBase2Prometheus ctx tables maxLen).ret = 0) :
    Conforms ctx (dataBase2Prometheus ctx tables maxLen) (pageSamples ctx tables maxLen.toNat) ↔
      ∀ sample ∈ pageSamples ctx tables maxLen.toNat, Expressible ctx sample := by
  have whole : (exportTables ctx tables maxLen.toNat).text.take (exportTables ctx tables maxLen.toNat).bufLen =
      (exportTables ctx tables maxLen.toNat).text :=
    List.take_of_length_le (Nat.le_of_eq (exportTables_success succeeded).1.symm)
  have opens (sample : PageSample) (_ : sample ∈ pageSamples ctx tables maxLen.toNat) :
      pageLines (sampleBody ctx sample) ≠ [] := by
    obtain ⟨rest, split⟩ := List.head?_eq_some_iff.mp (sampleBody_opens ctx sample)
    exact pageLines_ne_nil (split ▸ List.mem_cons_self) (by decide : (103 : UInt8) ≠ newline)
  rw [Conforms, dataBase2Prometheus, whole, exportTables_lines succeeded, Blocks.pieces_apiece opens]
  exact forall₂_congr fun sample _ => pageLines_body_iff

theorem Conforms.reads {scrape : DataBaseScrape} {samples : List PageSample} {line : Bytes}
    (conforms : Conforms ctx scrape samples) (member : line ∈ pageLines (scrape.text.take scrape.bufLen)) :
    Exposition.sample line ≠ none := by
  obtain ⟨sample, -, value, reads⟩ := Blocks.exists_left conforms.flip member
  rw [reads]
  exact Option.some_ne_none _

def samplePage (values : List Bytes) : List Table :=
  [sampleLoadedTable.withRecords [sampleMetaRecord.filled 512 values]]

def quotedPage : List Table := samplePage [ascii "\"", ascii "7", invalidMetricValue]

/-- The quote of a value ends the label it was pasted into. -/
theorem dataBase2Prometheus_quote_unescaped :
    dataBaseMgrParseContent sampleMetaRecord sampleFresh (ascii "|\"|7|") true =
        .ok (sampleMetaRecord.filled 512 [ascii "\"", ascii "7", invalidMetricValue]) ∧
      (dataBase2Prometheus sampleContext quotedPage 1024).ret = 0 ∧
      (∃ line ∈ pageLines ((dataBase2Prometheus sampleContext quotedPage 1024).text.take
        (dataBase2Prometheus sampleContext quotedPage 1024).bufLen), Exposition.sample line = none) ∧
      ¬ Conforms sampleContext (dataBase2Prometheus sampleContext quotedPage 1024)
        (pageSamples sampleContext quotedPage 1024) := by
  have unread : ∃ line ∈ pageLines ((dataBase2Prometheus sampleContext quotedPage 1024).text.take
      (dataBase2Prometheus sampleContext quotedPage 1024).bufLen), Exposition.sample line = none := by
    decide +kernel
  refine ⟨sampleFresh_parsed (by decide) (by decide), by decide +kernel, unread, ?_⟩
  intro conforms
  obtain ⟨line, member, refused⟩ := unread
  exact conforms.reads member refused

theorem dataBase2Prometheus_conforms_link :
    Conforms sampleContext (dataBase2Prometheus sampleContext (samplePage [ascii "10.0.0.1", ascii "7"]) 1024)
      (pageSamples sampleContext (samplePage [ascii "10.0.0.1", ascii "7"]) 1024) := by
  refine (dataBase2Prometheus_conforms_iff _ _ 1024 (by decide +kernel)).mpr ?_
  have samples : pageSamples sampleContext (samplePage [ascii "10.0.0.1", ascii "7"]) (UInt32.toNat 1024) =
      [⟨ascii "link", sampleMetaRecord.filled 512 [ascii "10.0.0.1", ascii "7"],
        sampleMetric "counter" "rx" "7"⟩] := by
    decide +kernel
  have labels : sampleLabels sampleContext (sampleMetaRecord.filled 512 [ascii "10.0.0.1", ascii "7"]) =
      [(ascii "ip", ascii "10.0.0.1"), (ascii "machine_id", ascii "m"), (ascii "hostname", ascii "h")] := by
    decide +kernel
  intro sample member
  rw [samples, List.mem_singleton] at member
  subst sample
  refine ⟨by decide, ⟨by decide, ?_, ?_, ascii "7", by decide, by decide⟩, by decide⟩
  · rw [labels]
    simp only [List.forall_mem_cons, List.not_mem_nil, false_implies, implies_true, and_true]
    exact ⟨⟨by decide, by decide, by decide⟩, ⟨by decide, by decide, by decide⟩, by decide, by decide, by decide⟩
  · rw [labels]
    decide

end GalaGopher.Imdb
