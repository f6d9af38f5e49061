import GalaGopher.Imdb.Prometheus

namespace GalaGopher.Imdb

open GalaGopher.Text

theorem cursorSnprintf_eq (bufLen : Int) (text : Bytes) :
    cursorSnprintf bufLen text =
      if (text.length : Int) < bufLen then some (bufLen - text.length) else none := by
  simp only [cursorSnprintf]
  split
  · rw [if_neg (by omega)]
  · split
    · rw [if_neg (by omega)]
    · rw [if_pos (by omega)]

theorem toInt32_of_small {value : Nat} (small : value < 2 ^ 31) : toInt32 value = value := by
  rw [toInt32, if_pos small]

theorem lt_toInt32_iff {value length : Nat} (unsigned : value < 2 ^ 32) :
    (length : Int) < toInt32 value ↔ value < 2 ^ 31 ∧ length < value := by
  simp only [toInt32]
  split
  · omega
  · omega

def labelPairs : List Metric → (first : Bool) → Bytes
  | [], _ => []
  | metric :: rest, first =>
      if metricTypeIsLabel metric then labelPair first metric ++ labelPairs rest false
      else labelPairs rest first

/-- The label set of a record in full, whatever the label buffer holds. -/
def labelText (ctx : ScrapeContext) (record : Record) : Bytes :=
  ascii "\x7b" ++ labelPairs record.metrics true ++ nodeLabels ctx.nodeInfo ++ ascii "\x7d"

def metricLine (ctx : ScrapeContext) (tableName labels : Bytes) (metric : Metric) : Bytes :=
  buildMetrics tableName metric.name.text ++ metricTail ctx metric labels

/-- One complete line for each metric of a Prometheus type. -/
def recordLines (ctx : ScrapeContext) (tableName : Bytes) (record : Record) : List Bytes :=
  (record.metrics.filter metricTypeSatisfyPrometheus).map
    (metricLine ctx tableName (labelText ctx record))

def LabelsFit (ctx : ScrapeContext) (record : Record) : Prop :=
  (labelText ctx record).length < maxLabelsBufferSize

instance (ctx : ScrapeContext) (record : Record) : Decidable (LabelsFit ctx record) :=
  inferInstanceAs (Decidable (_ < _))

/-- A record that can be put on a page: its labels fit their buffer, and it has
a metric of a Prometheus type. -/
def Serialisable (ctx : ScrapeContext) (record : Record) : Prop :=
  LabelsFit ctx record ∧ ∃ metric ∈ record.metrics, metricTypeSatisfyPrometheus metric = true

instance (ctx : ScrapeContext) (record : Record) : Decidable (Serialisable ctx record) :=
  inferInstanceAs (Decidable (_ ∧ _))

theorem Serialisable.lines_nonempty {ctx : ScrapeContext} {record : Record}
    (serialisable : Serialisable ctx record) (tableName : Bytes) :
    recordLines ctx tableName record ≠ [] := by
  obtain ⟨metric, member, typed⟩ := serialisable.2
  exact List.ne_nil_of_mem (List.mem_map_of_mem (List.mem_filter.mpr ⟨member, typed⟩))

theorem buildLabelPairs_eq (metrics : List Metric) (first : Bool) {size : Int} (room : 0 < size) :
    buildLabelPairs metrics first size =
      if ((labelPairs metrics first).length : Int) < size then
        some (labelPairs metrics first, size - (labelPairs metrics first).length)
      else none := by
  induction metrics generalizing first size with
  | nil => simp [buildLabelPairs, labelPairs, room]
  | cons metric rest ih =>
      by_cases labelled : metricTypeIsLabel metric = true
      · simp only [buildLabelPairs, labelPairs, labelled, if_true, cursorSnprintf_eq]
        by_cases fits : ((labelPair first metric).length : Int) < size
        · simp only [fits, if_true, Option.bind_eq_bind, Option.bind_some,
            ih false (show 0 < size - ((labelPair first metric).length : Int) by omega)]
          by_cases restFits : ((labelPairs rest false).length : Int) <
              size - ((labelPair first metric).length : Int)
          · have total : ((labelPair first metric ++ labelPairs rest false).length : Int) < size := by
              simp only [List.length_append]
              omega
            rw [if_pos restFits, if_pos total, Option.bind_some, List.length_append,
              Int.natCast_add, ← Int.sub_sub]
            rfl
          · have total : ¬ ((labelPair first metric ++ labelPairs rest false).length : Int) < size := by
              simp only [List.length_append]
              omega
            simp only [restFits, total, if_false, Option.bind_none]
        · have total : ¬ ((labelPair first metric ++ labelPairs rest false).length : Int) < size := by
            simp only [List.length_append]
            omega
          simp only [fits, total, if_false, Option.bind_eq_bind, Option.bind_none]
      · simp only [buildLabelPairs, labelPairs, labelled, Bool.false_eq_true, if_false]
        exact ih first room

theorem buildPrometheusLabel_eq (ctx : ScrapeContext) (record : Record) (maxLen : Nat) :
    buildPrometheusLabel ctx record maxLen =
      if (labelText ctx record).length < maxLen then some (labelText ctx record) else none := by
  have length : (labelText ctx record).length =
      1 + (labelPairs record.metrics true).length + (nodeLabels ctx.nodeInfo).length + 1 := by
    simp only [labelText, List.length_append]
    rfl
  have opening : (ascii "\x7b").length = 1 := rfl
  have closing : (ascii "\x7d").length = 1 := rfl
  simp only [buildPrometheusLabel, cursorSnprintf_eq, opening, closing, Option.bind_eq_bind]
  by_cases first : ((1 : Nat) : Int) < maxLen
  · simp only [first, if_true, Option.bind_some,
      buildLabelPairs_eq record.metrics true (show 0 < (maxLen : Int) - ((1 : Nat) : Int) by omega)]
    by_cases pairs : ((labelPairs record.metrics true).length : Int) < (maxLen : Int) - ((1 : Nat) : Int)
    · simp only [pairs, if_true, Option.bind_some]
      by_cases node : ((nodeLabels ctx.nodeInfo).length : Int) <
          (maxLen : Int) - ((1 : Nat) : Int) - ((labelPairs record.metrics true).length : Int)
      · simp only [node, if_true, Option.bind_some]
        by_cases last : ((1 : Nat) : Int) < (maxLen : Int) - ((1 : Nat) : Int) -
            ((labelPairs record.metrics true).length : Int) - ((nodeLabels ctx.nodeInfo).length : Int)
        · rw [if_pos last, if_pos (by omega)]
          rfl
        · rw [if_neg last, if_neg (by omega)]
          rfl
      · rw [if_neg node, if_neg (by omega)]
        rfl
    · rw [if_neg pairs, if_neg (by omega)]
      rfl
  · rw [if_neg first, if_neg (by omega)]
    rfl

theorem buildPrometheusMetrics_eq (ctx : ScrapeContext) (metric : Metric) (maxLen : Nat)
    (tableName labels : Bytes) :
    buildPrometheusMetrics ctx metric maxLen tableName labels =
      if ((metricLine ctx tableName labels metric).length : Int) < toInt32 maxLen then
        some (metricLine ctx tableName labels metric)
      else none := by
  have length : (metricLine ctx tableName labels metric).length =
      (buildMetrics tableName metric.name.text).length + (metricTail ctx metric labels).length := by
    simp only [metricLine, List.length_append]
  simp only [buildPrometheusMetrics, cursorSnprintf_eq, Option.bind_eq_bind]
  by_cases head : ((buildMetrics tableName metric.name.text).length : Int) < toInt32 maxLen
  · simp only [head, if_true, Option.bind_some]
    by_cases tail : ((metricTail ctx metric labels).length : Int) <
        toInt32 maxLen - ((buildMetrics tableName metric.name.text).length : Int)
    · rw [if_pos tail, if_pos (by omega)]
      rfl
    · rw [if_neg tail, if_neg (by omega)]
      rfl
  · rw [if_neg head, if_neg (by omega)]
    rfl

/-- The lines written before the first that does not fit. -/
def takeFitting : Nat → List Bytes → List Bytes
  | _, [] => []
  | room, line :: rest =>
      if (line.length : Int) < toInt32 room then line :: takeFitting (room - line.length) rest
      else []

theorem exportMetrics_eq (ctx : ScrapeContext) (tableName labels : Bytes) (metrics : List Metric)
    (room : Nat) :
    exportMetrics ctx tableName labels metrics room =
      (takeFitting room ((metrics.filter metricTypeSatisfyPrometheus).map
        (metricLine ctx tableName labels))).flatten := by
  induction metrics generalizing room with
  | nil => rfl
  | cons metric rest ih =>
      by_cases typed : metricTypeSatisfyPrometheus metric = true
      · simp only [exportMetrics, typed, if_true, List.filter_cons_of_pos, List.map_cons,
          takeFitting, buildPrometheusMetrics_eq]
        by_cases fits : ((metricLine ctx tableName labels metric).length : Int) < toInt32 room
        · simp only [fits, if_true, List.flatten_cons, ih]
        · simp only [fits, if_false, List.flatten_nil]
      · simp only [exportMetrics, typed, Bool.false_eq_true, if_false, List.filter_cons_of_neg,
          not_false_eq_true, ih]

theorem rec2Prometheus_eq (ctx : ScrapeContext) (record : Record) (room : Nat) (tableName : Bytes) :
    rec2Prometheus ctx record room tableName =
      if LabelsFit ctx record then (takeFitting room (recordLines ctx tableName record)).flatten
      else [] := by
  by_cases fits : LabelsFit ctx record
  · have built := buildPrometheusLabel_eq ctx record maxLabelsBufferSize
    rw [if_pos (show _ < _ from fits)] at built
    rw [if_pos fits, rec2Prometheus, built]
    exact exportMetrics_eq ctx tableName _ record.metrics room
  · have missing := buildPrometheusLabel_eq ctx record maxLabelsBufferSize
    rw [if_neg (show ¬ _ < _ from fits)] at missing
    rw [if_neg fits, rec2Prometheus, missing]

/-- A line starts with the `g` of its prefix and ends with its only newline
that is not data. -/
theorem recordLines_shape {ctx : ScrapeContext} {tableName line : Bytes} {record : Record}
    (member : line ∈ recordLines ctx tableName record) :
    103 ∈ line ∧ line.getLast? = some newline := by
  obtain ⟨metric, -, rfl⟩ := List.mem_map.mp member
  constructor
  · simp only [metricLine, buildMetrics, List.mem_append]
    exact .inl (.inl (.inl (.inl (by decide))))
  · simp [metricLine, metricTail, ← List.append_assoc]

theorem takeFitting_front (room : Nat) (lines : List Bytes) : takeFitting room lines <+: lines := by
  induction lines generalizing room with
  | nil => exact List.prefix_rfl
  | cons line rest ih =>
      simp only [takeFitting]
      split
      · exact List.cons_prefix_cons.mpr ⟨rfl, ih _⟩
      · exact List.nil_prefix

/-- Everything is written when it fits as a whole. -/
theorem takeFitting_of_fits {room : Nat} {lines : List Bytes} (signed : room < 2 ^ 31)
    (fits : lines.flatten.length < room) : takeFitting room lines = lines := by
  induction lines generalizing room with
  | nil => rfl
  | cons line rest ih =>
      simp only [List.flatten_cons, List.length_append] at fits
      have lineFits : (line.length : Int) < toInt32 room := by
        rw [toInt32_of_small signed]
        omega
      simp only [takeFitting, lineFits, if_true]
      rw [ih (by omega) (by omega)]

theorem takeFitting_started_iff {room : Nat} {lines : List Bytes} :
    takeFitting room lines ≠ [] ↔ ∃ line, lines.head? = some line ∧ (line.length : Int) < toInt32 room := by
  cases lines with
  | nil => simp [takeFitting]
  | cons line rest =>
      simp only [takeFitting, List.head?_cons, Option.some.injEq, exists_eq_left']
      split
      · simpa
      · rename_i tooLong
        simpa using tooLong

end GalaGopher.Imdb
