import GalaGopher.Imdb.Prometheus.Scrape
import GalaGopher.Text.Printed
import Mathlib.Data.List.Flatten

namespace GalaGopher.Imdb

open GalaGopher.Text GalaGopher.Data

variable {ctx : ScrapeContext} {tables : List Table} {room : Nat} {page : Bytes} {lines : List Bytes}

theorem Contains.append {other : Bytes} {more : List Bytes} (left : Contains page lines)
    (right : Contains other more) : Contains (page ++ other) (lines ++ more) := by
  obtain ⟨pieces, rfl, ended, part⟩ := left
  obtain ⟨morePieces, rfl, moreEnded, morePart⟩ := right
  refine ⟨pieces ++ morePieces, by rw [List.flatten_append], ?_, part.append morePart⟩
  intro piece member
  rcases List.mem_append.mp member with earlier | later
  · exact ended piece earlier
  · exact moreEnded piece later

theorem Contains.of_perm {others : List Bytes} (contains : Contains page lines)
    (perm : others.Perm lines) : Contains page others := by
  obtain ⟨pieces, text, ended, part⟩ := contains
  exact ⟨pieces, text, ended, perm.subperm.trans part⟩

theorem Contains.count_le (contains : Contains page lines) (mark : UInt8) :
    lines.flatten.count mark ≤ page.count mark := by
  obtain ⟨pieces, rfl, -, kept, perm, part⟩ := contains
  rw [← perm.flatten.count_eq]
  exact part.flatten.count_le mark

theorem tableText_contains (ctx : ScrapeContext) (table : Table) :
    Contains (tableText ctx table) (tableLines ctx table) := by
  have ended : ∀ line ∈ tableLines ctx table, line.getLast? = some newline := by
    intro line member
    obtain ⟨record, -, lineMember⟩ := List.mem_flatMap.mp member
    exact (recordLines_shape lineMember).2
  by_cases empty : table.records = []
  · refine ⟨[], by simp [tableText, empty], by simp, ?_⟩
    simp [tableLines, scheduled, empty]
  · refine ⟨tableLines ctx table ++ [[newline]], by simp [tableText, empty], ?_,
      (List.sublist_append_left _ _).subperm⟩
    intro piece member
    rcases List.mem_append.mp member with earlier | last
    · exact ended piece earlier
    · rw [List.mem_singleton.mp last]
      rfl

theorem pageText_contains (ctx : ScrapeContext) (tables : List Table) :
    Contains (pageText ctx tables) (tables.flatMap (tableLines ctx)) := by
  induction tables with
  | nil => exact ⟨[], rfl, by simp, by simp⟩
  | cons table rest ih => exact (tableText_contains ctx table).append ih

/-- A page with every line due is the complete page. -/
theorem Written.eq_pageText (written : Written ctx tables page)
    (contains : Contains page (tables.flatMap (tableLines ctx))) : page = pageText ctx tables :=
  written.exact (contains.count_le 103)

/-- A line with the newline it ends in, and no other. -/
def CompleteLine (piece : Bytes) : Prop := ∃ body, newline ∉ body ∧ piece = body ++ [newline]

/-- A page of complete lines, among which every one of the given lines is one
of its own. -/
def ContainsLines (page : Bytes) (lines : List Bytes) : Prop :=
  ∃ pieces : List Bytes, page = pieces.flatten ∧ (∀ piece ∈ pieces, CompleteLine piece) ∧ lines.Subperm pieces

/-- The client gets every line of what an accepted request removed unexpired,
and a refused request removes nothing unexpired. -/
def LosesNothing (ctx : ScrapeContext) (tables : List Table) (scrape : DataBaseScrape) : Prop :=
  (scrape.ret = 0 → ContainsLines (scrape.text.take scrape.bufLen)
    ((departed ctx tables scrape.tables).flatMap (namedLines ctx))) ∧
  (scrape.ret = -1 → departed ctx tables scrape.tables = [])

theorem CompleteLine.ends {piece : Bytes} (complete : CompleteLine piece) : piece.getLast? = some newline := by
  obtain ⟨body, -, rfl⟩ := complete
  exact List.getLast?_concat

theorem completeLine_iff {body : Bytes} : CompleteLine (body ++ [newline]) ↔ newline ∉ body := by
  constructor
  · intro complete
    obtain ⟨other, free, same⟩ := complete
    rwa [List.append_cancel_right same]
  · intro free
    exact ⟨body, free, rfl⟩

/-- A text that ends in a newline is one or more complete lines. -/
theorem closed_lines (body : Bytes) :
    ∃ lines : List Bytes, body ++ [newline] = lines.flatten ∧ ∀ line ∈ lines, CompleteLine line := by
  induction body with
  | nil => exact ⟨[[newline]], rfl, by simpa using completeLine_iff.mpr List.not_mem_nil⟩
  | cons byte rest ih =>
      obtain ⟨lines, text, complete⟩ := ih
      by_cases breaks : byte = newline
      · refine ⟨[newline] :: lines, by rw [breaks, List.cons_append, text]; rfl, ?_⟩
        exact List.forall_mem_cons.mpr ⟨completeLine_iff.mpr List.not_mem_nil, complete⟩
      · -- the byte goes in front of the first line
        cases lines with
        | nil => simp at text
        | cons first others =>
            obtain ⟨⟨start, free, rfl⟩, later⟩ := List.forall_mem_cons.mp complete
            refine ⟨(byte :: start ++ [newline]) :: others, by rw [List.cons_append, text]; rfl, ?_⟩
            refine List.forall_mem_cons.mpr ⟨completeLine_iff.mpr ?_, later⟩
            simp [free, Ne.symm breaks]

theorem ContainsLines.of_perm {others : List Bytes} (whole : ContainsLines page lines) (perm : others.Perm lines) :
    ContainsLines page others := by
  obtain ⟨pieces, text, complete, part⟩ := whole
  exact ⟨pieces, text, complete, perm.subperm.trans part⟩

theorem ContainsLines.contains (whole : ContainsLines page lines) : Contains page lines := by
  obtain ⟨pieces, text, complete, part⟩ := whole
  exact ⟨pieces, text, fun piece member => (complete piece member).ends, part⟩

theorem ContainsLines.complete (whole : ContainsLines page lines) : ∀ line ∈ lines, CompleteLine line := by
  obtain ⟨pieces, -, complete, part⟩ := whole
  exact fun line member => complete line (part.subset member)

theorem ContainsLines.nil_of_closed {pieces : List Bytes} (ended : ∀ piece ∈ pieces, piece.getLast? = some newline) :
    ContainsLines pieces.flatten [] := by
  suffices cut : ∃ lines : List Bytes, pieces.flatten = lines.flatten ∧ ∀ line ∈ lines, CompleteLine line by
    obtain ⟨lines, text, complete⟩ := cut
    exact ⟨lines, text, complete, List.nil_subperm⟩
  induction pieces with
  | nil => exact ⟨[], rfl, by simp⟩
  | cons piece rest ih =>
      obtain ⟨closed, others⟩ := List.forall_mem_cons.mp ended
      obtain ⟨body, rfl⟩ := List.getLast?_eq_some_iff.mp closed
      obtain ⟨front, frontText, frontComplete⟩ := closed_lines body
      obtain ⟨lines, text, complete⟩ := ih others
      refine ⟨front ++ lines, by rw [List.flatten_cons, frontText, text, List.flatten_append], ?_⟩
      exact List.forall_mem_append.mpr ⟨frontComplete, complete⟩

/-- No text that a record's lines are pasted from holds a newline. -/
structure Unbroken (ctx : ScrapeContext) (tableName : Bytes) (record : Record) : Prop where
  table : newline ∉ tableName
  metrics : ∀ metric ∈ record.metrics, metricTypeSatisfyPrometheus metric ∨ metricTypeIsLabel metric →
    newline ∉ metric.name.text ∧ newline ∉ metric.val.text
  machine : newline ∉ ctx.nodeInfo.machineId.text
  host : newline ∉ ctx.nodeInfo.hostName.text

def AllUnbroken (ctx : ScrapeContext) (tables : List Table) : Prop :=
  ∀ table ∈ tables, ∀ record ∈ scheduled ctx table.records, Unbroken ctx table.name.text record

theorem labelPairs_free_iff (metrics : List Metric) (first : Bool) :
    newline ∉ labelPairs metrics first ↔ ∀ metric ∈ metrics, metricTypeIsLabel metric →
      newline ∉ metric.name.text ∧ newline ∉ metric.val.text := by
  have opening : newline ∉ ascii "=\"" := by decide
  have closing : newline ∉ ascii "\"" := by decide
  have separator (first : Bool) : newline ∉ (if first then [] else ascii ",") := by cases first <;> decide
  induction metrics generalizing first with
  | nil => simp [labelPairs]
  | cons metric rest ih =>
      rw [labelPairs, List.forall_mem_cons]
      split
      · rename_i labelled
        have later := ih false
        simp only [labelPair, List.mem_append, opening, closing, separator, labelled, forall_const]
        tauto
      · rename_i unlabelled
        have later := ih first
        tauto

theorem labelText_free_iff (record : Record) : newline ∉ labelText ctx record ↔
    (∀ metric ∈ record.metrics, metricTypeIsLabel metric → newline ∉ metric.name.text ∧ newline ∉ metric.val.text) ∧
      newline ∉ ctx.nodeInfo.machineId.text ∧ newline ∉ ctx.nodeInfo.hostName.text := by
  have opening : newline ∉ ascii "\x7b" := by decide
  have closing : newline ∉ ascii "\x7d" := by decide
  have machine : newline ∉ ascii ",machine_id=\"" := by decide
  have host : newline ∉ ascii "\",hostname=\"" := by decide
  have quoted : newline ∉ ascii "\"" := by decide
  rw [← labelPairs_free_iff record.metrics true]
  simp only [labelText, nodeLabels, List.mem_append, opening, closing, machine, host, quoted]
  tauto

theorem metricLine_complete_iff (tableName labels : Bytes) (metric : Metric) :
    CompleteLine (metricLine ctx tableName labels metric) ↔
      newline ∉ tableName ∧ newline ∉ labels ∧ newline ∉ metric.name.text ∧ newline ∉ metric.val.text := by
  have shape : metricLine ctx tableName labels metric =
      (buildMetrics tableName metric.name.text ++ (labels ++ ascii " " ++ metric.val.text ++ ascii " " ++
        decimal (ctx.now * 1000))) ++ [newline] := by
    simp only [metricLine, metricTail, List.append_assoc]
  have front : newline ∉ ascii "gala_gopher_" := by decide
  have joint : newline ∉ ascii "_" := by decide
  have space : newline ∉ ascii " " := by decide
  have time : newline ∉ decimal (ctx.now * 1000) := printed_free (by decide) _
  rw [shape, completeLine_iff]
  simp only [buildMetrics, List.mem_append, front, joint, space, time]
  tauto

/-- The lines of a record are complete exactly when none of its texts breaks
them. -/
theorem recordLines_complete_iff {tableName : Bytes} {record : Record} (serialisable : Serialisable ctx record) :
    (∀ line ∈ recordLines ctx tableName record, CompleteLine line) ↔ Unbroken ctx tableName record := by
  simp only [recordLines, List.forall_mem_map, metricLine_complete_iff, List.mem_filter, labelText_free_iff]
  constructor
  · intro complete
    obtain ⟨metric, member, typed⟩ := serialisable.2
    obtain ⟨table, ⟨labels, machine, host⟩, -⟩ := complete metric ⟨member, typed⟩
    refine ⟨table, fun metric member either => ?_, machine, host⟩
    rcases either with typed | labelled
    · exact (complete metric ⟨member, typed⟩).2.2
    · exact labels metric member labelled
  · intro unbroken metric member
    refine ⟨unbroken.table, ⟨fun other present labelled => ?_, unbroken.machine, unbroken.host⟩, ?_⟩
    · exact unbroken.metrics other present (.inr labelled)
    · exact unbroken.metrics metric member.1 (.inl member.2)

theorem tableLines_complete_iff (serialisable : AllSerialisable ctx tables) :
    (∀ line ∈ tables.flatMap (tableLines ctx), CompleteLine line) ↔ AllUnbroken ctx tables := by
  simp only [tableLines, List.mem_flatMap]
  constructor
  · intro complete table member record due
    refine (recordLines_complete_iff (serialisable table member record due)).mp fun line inside => ?_
    exact complete line ⟨table, member, record, due, inside⟩
  · intro unbroken line inside
    obtain ⟨table, member, record, due, inside⟩ := inside
    exact (recordLines_complete_iff (serialisable table member record due)).mpr (unbroken table member record due)
      line inside

theorem pageText_containsLines (complete : ∀ line ∈ tables.flatMap (tableLines ctx), CompleteLine line) :
    ContainsLines (pageText ctx tables) (tables.flatMap (tableLines ctx)) := by
  have closing : CompleteLine [newline] := completeLine_iff.mpr List.not_mem_nil
  induction tables with
  | nil => exact ⟨[], rfl, by simp, by simp⟩
  | cons table rest ih =>
      rw [List.flatMap_cons] at complete ⊢
      obtain ⟨own, others⟩ := List.forall_mem_append.mp complete
      obtain ⟨pieces, text, whole, part⟩ := ih others
      rw [pageText, List.flatMap_cons, ← pageText, text]
      by_cases empty : table.records = []
      · have none : tableLines ctx table = [] := by simp [tableLines, scheduled, empty]
        rw [none, tableText, if_pos empty]
        exact ⟨pieces, rfl, whole, part⟩
      · refine ⟨tableLines ctx table ++ [newline] :: pieces, by simp [tableText, empty], ?_, ?_⟩
        · exact List.forall_mem_append.mpr ⟨own, List.forall_mem_cons.mpr ⟨closing, whole⟩⟩
        · exact (List.Subperm.refl _).append (part.trans (List.sublist_cons_self _ _).subperm)

/-- The first unexpired record gets its first line into the buffer. -/
def Starts (ctx : ScrapeContext) (tables : List Table) (room : Nat) : Prop :=
  ∃ name record left, firstDue ctx tables room = some (name, record, left) ∧
    Started ctx name left record

/-- All records due have lines, no newline breaks them, and their page fits
the buffer. -/
structure PageFits (ctx : ScrapeContext) (tables : List Table) (room : Nat) : Prop where
  serialisable : AllSerialisable ctx tables
  unbroken : AllUnbroken ctx tables
  short : (pageText ctx tables).length < room

theorem Starts.signed (unsigned : room < 2 ^ 32) (starts : Starts ctx tables room) :
    SignedRoom ctx tables room := by
  obtain ⟨name, record, left, found, -, line, -, short⟩ := starts
  have bounded := firstDue_left_le found
  intro otherName otherRecord otherLeft otherFound
  rw [found] at otherFound
  simp only [Option.some.injEq, Prod.mk.injEq] at otherFound
  rw [← otherFound.2.2]
  exact ((lt_toInt32_iff (by omega)).mp short).1

theorem exportTables_exported_iff :
    (exportTables ctx tables room).exported ≠ [] ↔ Starts ctx tables room := by
  cases found : firstDue ctx tables room with
  | none => simp [Starts, found, exportTables_idle found]
  | some due =>
      obtain ⟨name, record, left⟩ := due
      obtain ⟨begun, stuck⟩ := exportTables_first found
      constructor
      · intro exported
        refine ⟨name, record, left, found, ?_⟩
        exact not_not.mp fun idle => exported (stuck idle).2
      · intro given
        obtain ⟨otherName, otherRecord, otherLeft, otherFound, started⟩ := given
        rw [found] at otherFound
        simp only [Option.some.injEq, Prod.mk.injEq] at otherFound
        obtain ⟨rfl, rfl, rfl⟩ := otherFound
        exact List.ne_nil_of_mem (begun started)

theorem departed_lines_perm (succeeded : (exportTables ctx tables room).ret = 0) :
    ((departed ctx tables (exportTables ctx tables room).tables).flatMap (namedLines ctx)).Perm
      (tables.flatMap (tableLines ctx)) := by
  have exported := (exportTables_success succeeded).2.1
  rw [← pageRecords_lines, ← exported]
  exact (exportTables_departed ctx tables room).flatMap_right _

theorem exportTables_page (succeeded : (exportTables ctx tables room).ret = 0) :
    (exportTables ctx tables room).text.take (exportTables ctx tables room).bufLen =
      (exportTables ctx tables room).text := by
  rw [(exportTables_success succeeded).1, List.take_length]

/-- A request loses nothing exactly when it exports nothing at all or can
export everything due. -/
theorem dataBase2Prometheus_loses_nothing_iff (ctx : ScrapeContext) (tables : List Table)
    (maxLen : UInt32) :
    LosesNothing ctx tables (dataBase2Prometheus ctx tables maxLen) ↔
      (Starts ctx tables maxLen.toNat → PageFits ctx tables maxLen.toNat) := by
  simp only [LosesNothing, dataBase2Prometheus]
  constructor
  · intro given starts
    obtain ⟨accepted, refused⟩ := given
    have exported := exportTables_exported_iff.mpr starts
    have departs : departed ctx tables (exportTables ctx tables maxLen.toNat).tables ≠ [] := by
      intro none
      have perm := exportTables_departed ctx tables maxLen.toNat
      rw [none] at perm
      exact exported perm.symm.eq_nil
    rcases exportTables_ret ctx tables maxLen.toNat with succeeded | failed
    · obtain ⟨-, -, written, short⟩ := exportTables_success succeeded
      have contains := accepted succeeded
      rw [exportTables_page succeeded] at contains
      have perm := departed_lines_perm succeeded
      have whole := written.eq_pageText (contains.contains.of_perm perm.symm)
      have nonempty : tables ≠ [] := by
        intro same
        subst same
        exact exported rfl
      have complete : ∀ line ∈ tables.flatMap (tableLines ctx), CompleteLine line :=
        fun line member => contains.complete line (perm.mem_iff.mpr member)
      exact ⟨written.serialisable, (tableLines_complete_iff written.serialisable).mp complete, whole ▸ short nonempty⟩
    · exact absurd (refused failed) departs
  · intro complete
    by_cases starts : Starts ctx tables maxLen.toNat
    · obtain ⟨serialisable, unbroken, fits⟩ := complete starts
      have signed := starts.signed maxLen.toNat_lt
      obtain ⟨succeeded, text⟩ := exportTables_complete serialisable signed fits
      refine ⟨fun _ => ?_, fun failed => by omega⟩
      rw [exportTables_page succeeded, text]
      have lines := (tableLines_complete_iff serialisable).mpr unbroken
      exact (pageText_containsLines lines).of_perm (departed_lines_perm succeeded)
    · have nothing := not_not.mp (mt exportTables_exported_iff.mp starts)
      have none : departed ctx tables (exportTables ctx tables maxLen.toNat).tables = [] := by
        have perm := exportTables_departed ctx tables maxLen.toNat
        rw [nothing] at perm
        exact perm.eq_nil
      refine ⟨fun succeeded => ?_, fun _ => none⟩
      obtain ⟨-, -, written, -⟩ := exportTables_success succeeded
      obtain ⟨pieces, text, ended⟩ := written.pieces
      rw [none, exportTables_page succeeded, text]
      exact .nil_of_closed ended

/-- Room for one line only: the first record is destroyed, the second fails,
and the client gets nothing. -/
theorem dataBase2Prometheus_loses_first_record :
    let counted := [sampleMetric "counter" "rx" "1"]
    let tables := [sampleTable "link" [sampleRecord "a" counted, sampleRecord "b" counted]]
    ¬ LosesNothing sampleContext tables (dataBase2Prometheus sampleContext tables 80) := by
  intro counted tables lossless
  have refused := lossless.2 (by decide +kernel)
  revert refused
  decide +kernel

/-- The lines of the records due that can be serialised. -/
def serialisableLines (ctx : ScrapeContext) (table : Table) : List Bytes :=
  ((scheduled ctx table.records).filter (Serialisable ctx)).flatMap (recordLines ctx table.name.text)

/-- What is emitted when records without a text are passed over. -/
def serialisablePage (ctx : ScrapeContext) (tables : List Table) : Bytes :=
  tables.flatMap fun table =>
    if table.records = [] then [] else (serialisableLines ctx table).flatten ++ [newline]

/-- The request succeeds with every record due that can be serialised. -/
def ExportsOthers (ctx : ScrapeContext) (tables : List Table) (scrape : DataBaseScrape) : Prop :=
  scrape.ret = 0 ∧
    Contains (scrape.text.take scrape.bufLen) (tables.flatMap (serialisableLines ctx))

theorem serialisableLines_of_all {table : Table}
    (serialisable : ∀ record ∈ scheduled ctx table.records, Serialisable ctx record) :
    serialisableLines ctx table = tableLines ctx table := by
  rw [serialisableLines, tableLines, List.filter_eq_self.mpr]
  simpa using serialisable

theorem serialisablePage_of_all (serialisable : AllSerialisable ctx tables) :
    serialisablePage ctx tables = pageText ctx tables := by
  rw [serialisablePage, pageText]
  apply List.flatMap_congr
  intro table member
  rw [tableText, serialisableLines_of_all (serialisable table member)]

/-- With room for all that can be serialised, the request exports it exactly
when nothing due is beyond serialising. -/
theorem dataBase2Prometheus_exports_others_iff (ctx : ScrapeContext) (tables : List Table)
    (maxLen : UInt32) (room : (serialisablePage ctx tables).length < maxLen.toNat) :
    ExportsOthers ctx tables (dataBase2Prometheus ctx tables maxLen) ↔
      AllSerialisable ctx tables ∧ SignedRoom ctx tables maxLen.toNat := by
  simp only [ExportsOthers, dataBase2Prometheus]
  constructor
  · intro given
    obtain ⟨succeeded, -⟩ := given
    refine ⟨(exportTables_success succeeded).2.2.1.serialisable, ?_⟩
    cases found : firstDue ctx tables maxLen.toNat with
    | none =>
        intro name record left other
        rw [found] at other
        contradiction
    | some due =>
        obtain ⟨name, record, left⟩ := due
        have started : Started ctx name left record := by
          apply not_not.mp
          intro idle
          have failed := ((exportTables_first found).2 idle).1
          omega
        exact Starts.signed maxLen.toNat_lt ⟨name, record, left, found, started⟩
  · intro given
    obtain ⟨serialisable, signed⟩ := given
    rw [serialisablePage_of_all serialisable] at room
    obtain ⟨succeeded, text⟩ := exportTables_complete serialisable signed room
    refine ⟨succeeded, ?_⟩
    have lines : tables.flatMap (serialisableLines ctx) = tables.flatMap (tableLines ctx) :=
      List.flatMap_congr fun table member => serialisableLines_of_all (serialisable table member)
    rw [exportTables_page succeeded, text, lines]
    exact pageText_contains ctx tables

/-- A label-only record followed by one with a counter: with ample room the
good record is withheld, whatever its own table. -/
theorem dataBase2Prometheus_poisoned_by_labels :
    let labelled := sampleRecord "a" [sampleMetric "label" "comm" "x"]
    let counted := sampleRecord "b" [sampleMetric "counter" "rx" "1"]
    let tables := [sampleTable "proc" [labelled], sampleTable "link" [counted]]
    (serialisablePage sampleContext tables).length < (1024 : UInt32).toNat ∧
      ¬ ExportsOthers sampleContext tables (dataBase2Prometheus sampleContext tables 1024) := by
  refine ⟨by decide +kernel, ?_⟩
  intro given
  obtain ⟨succeeded, -⟩ := given
  revert succeeded
  decide +kernel

/-- Two records with counters in one table, one more in another, and a kilobyte
of room. -/
theorem dataBase2Prometheus_exports_three :
    let counted (key value : String) := sampleRecord key [sampleMetric "label" "comm" key, sampleMetric "counter" "rx" value]
    let tables := [sampleTable "proc" [counted "a" "1", counted "b" "2"], sampleTable "disk" [], sampleTable "link" [counted "c" "3"]]
    ExportsOthers sampleContext tables (dataBase2Prometheus sampleContext tables 1024) ↔
      AllSerialisable sampleContext tables ∧ SignedRoom sampleContext tables (1024 : UInt32).toNat :=
  dataBase2Prometheus_exports_others_iff sampleContext _ 1024 (by decide +kernel)

end GalaGopher.Imdb
