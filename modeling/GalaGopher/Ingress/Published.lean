import GalaGopher.Data.Runs
import GalaGopher.Imdb.Prometheus.Loss
import GalaGopher.Ingress.Board

namespace GalaGopher.Ingress

open GalaGopher.Text GalaGopher.Text.Exposition GalaGopher.Data GalaGopher.Imdb

/-- The fresh values among the first, up to a quota, and what is left behind
the last one looked at. -/
def due {α : Type} (fresh : α → Bool) : List α → (quota : Nat) → List α × List α
  | [], _ => ([], [])
  | value :: rest, quota =>
      if quota = 0 then ([], value :: rest)
      else if fresh value then (value :: (due fresh rest (quota - 1)).1, (due fresh rest (quota - 1)).2)
      else due fresh rest quota

/-- What is written in a row, by name and type of the column. -/
def Board.cells (board : Board) (row : Row) : List (Bytes × Bytes × Bytes) :=
  (board.fields.zip row.values).map fun pair => (pair.1.name.text, pair.1.type.text, orNull pair.2)

def isLabelType (type : Bytes) : Bool := [metricTypeLabel, metricTypeKey].any fun label => type = label

def isPrometheusType (type : Bytes) : Bool := prometheusTypes.any fun known => type = known

def Board.labels (ctx : ScrapeContext) (board : Board) (row : Row) : List (Bytes × Bytes) :=
  ((board.cells row).filter fun cell => isLabelType cell.2.1).map (fun cell => (cell.1, cell.2.2)) ++ nodePairs ctx.nodeInfo

def Board.rowSamples (ctx : ScrapeContext) (board : Board) (row : Row) : List Exposition.Sample :=
  ((board.cells row).filter fun cell => isPrometheusType cell.2.1).map fun cell =>
    { name := buildMetrics board.name cell.1
      labels := board.labels ctx row
      value := cell.2.2
      timestamp := decimal (ctx.now * 1000) }

def Row.fresh (ctx : ScrapeContext) (row : Row) : Bool := !(row.time + ctx.recordTimeout < ctx.now)

def Board.due (ctx : ScrapeContext) (board : Board) : List Row × List Row :=
  Ingress.due (Row.fresh ctx) board.rows defaultPeriodRecordNum

def Board.samples (ctx : ScrapeContext) (board : Board) : List Exposition.Sample :=
  (board.due ctx).1.flatMap (board.rowSamples ctx)

def Board.text (ctx : ScrapeContext) (board : Board) : Bytes :=
  if board.rows = [] then [] else samplesText (board.samples ctx) ++ [newline]

/-- A shown row leaves the board. -/
def Board.shown (ctx : ScrapeContext) (board : Board) : Board := { board with rows := (board.due ctx).2 }

/-- A row that can be put on a page. -/
structure Board.Showable (ctx : ScrapeContext) (board : Board) (row : Row) : Prop where
  labelled : ∃ cell ∈ board.cells row, isLabelType cell.2.1
  measured : ∃ cell ∈ board.cells row, isPrometheusType cell.2.1
  fits : (setText (board.labels ctx row)).length < maxLabelsBufferSize

variable {α β : Type} {ctx : ScrapeContext} {board : Board} {boards : List Board} {row : Row} {record : Record}
  {table : Table} {tables : List Table} {room : Nat}

theorem due_shown (fresh : α → Bool) (values : List α) (quota : Nat) :
    (due fresh values quota).1 = (values.filter fresh).take quota := by
  induction values generalizing quota with
  | nil => simp [due]
  | cons value rest ih =>
      by_cases spent : quota = 0
      · simp [due, spent]
      · obtain ⟨more, rfl⟩ := Nat.exists_eq_succ_of_ne_zero spent
        cases new : fresh value with
        | true => simp [due, new, ih]
        | false => simp [due, new, ih]

theorem due_left_suffix (fresh : α → Bool) (values : List α) (quota : Nat) : (due fresh values quota).2 <:+ values := by
  induction values generalizing quota with
  | nil => exact List.suffix_refl _
  | cons value rest ih =>
      rw [due]
      split
      · exact List.suffix_refl _
      · split
        · exact (ih _).trans (List.suffix_cons _ _)
        · exact (ih _).trans (List.suffix_cons _ _)

theorem forall₂_due {related : α → β → Prop} {left : α → Bool} {right : β → Bool} {lefts : List α} {rights : List β}
    (same : ∀ value other, related value other → left value = right other) (each : List.Forall₂ related lefts rights)
    (quota : Nat) :
    List.Forall₂ related (due left lefts quota).1 (due right rights quota).1 ∧
      List.Forall₂ related (due left lefts quota).2 (due right rights quota).2 := by
  induction each generalizing quota with
  | nil => exact ⟨.nil, .nil⟩
  | cons here later ih =>
      rw [due, due, same _ _ here]
      split
      · exact ⟨.nil, .cons here later⟩
      · split
        · exact ⟨.cons here (ih _).1, (ih _).2⟩
        · exact ih _

/-- What the record loop takes out of the table and what it leaves. -/
theorem exportRecords_due {tableName : Bytes} {records : List Record} {index : Nat}
    (finished : (exportRecords ctx tableName records room index).finished = true) :
    (exportRecords ctx tableName records room index).records =
      (due (live ctx) records (defaultPeriodRecordNum - index)).2 := by
  induction records generalizing room index with
  | nil => rfl
  | cons record rest ih =>
      rw [exportRecords_cons] at finished ⊢
      rw [due]
      by_cases full : index ≥ defaultPeriodRecordNum
      · rw [if_pos full, if_pos (by omega)]
      · rw [if_neg full] at finished ⊢
        rw [if_neg (by omega : ¬ defaultPeriodRecordNum - index = 0)]
        cases stale : expired ctx record with
        | true =>
            rw [if_pos stale] at finished
            rw [if_pos rfl, if_neg (by simp [live, stale])]
            exact ih finished
        | false =>
            rw [stale] at finished
            simp only [Bool.false_eq_true, if_false] at finished ⊢
            split at finished
            · cases finished
            · rename_i written
              have next : defaultPeriodRecordNum - index - 1 = defaultPeriodRecordNum - (index + 1) := by omega
              rw [if_neg written, if_pos (by simp [live, stale]), next]
              exact ih finished

theorem exportTables_due (succeeded : (exportTables ctx tables room).ret = 0) :
    (exportTables ctx tables room).tables =
      tables.map fun table => table.withRecords (due (live ctx) table.records defaultPeriodRecordNum).2 := by
  induction tables generalizing room with
  | nil => rfl
  | cons table rest ih =>
      simp only [exportTables] at succeeded ⊢
      split at succeeded
      · cases succeeded
      · rename_i accepted
        rw [if_neg accepted, List.map_cons, ih succeeded]
        by_cases empty : table.records = []
        · simp only [tbl2Prometheus, hashRecordCount, empty, List.length_nil, if_true, due]
          rw [← empty]
          rfl
        · have finished := (tbl2Prometheus_walked empty accepted).1
          have counted : hashRecordCount table.records ≠ 0 := fun none => empty (List.eq_nil_of_length_eq_zero none)
          rw [tbl2Prometheus, if_neg counted]
          simp only [finished, if_true]
          rw [exportRecords_due finished]
          rfl

theorem RowStored.cells (stored : RowStored board.fields row record) :
    record.metrics.map (fun metric => (metric.name.text, metric.type.text, metric.val.text)) = board.cells row :=
  stored.decoded.metrics

theorem RowStored.labels (stored : RowStored board.fields row record) (ctx : ScrapeContext) :
    sampleLabels ctx record = board.labels ctx row := by
  rw [sampleLabels, Board.labels, ← stored.cells, List.filter_map, List.map_map]
  rfl

theorem RowStored.live (stored : RowStored board.fields row record) (ctx : ScrapeContext) :
    row.fresh ctx = live ctx record := by
  rw [Row.fresh, Imdb.live, expired, stored.time]

theorem labelText_eq (labelled : (record.metrics.filter metricTypeIsLabel).map metricPair ≠ []) :
    Imdb.labelText ctx record = setText (sampleLabels ctx record) := by
  have opening : ascii "\x7b" = [openBrace] := rfl
  have closing : ascii "\x7d" = [closeBrace] := rfl
  have present : ((record.metrics.filter metricTypeIsLabel).map metricPair).flatMap (fun pair => comma :: pairText pair) ≠ [] := by
    obtain ⟨pair, others, shape⟩ := List.exists_cons_of_ne_nil labelled
    rw [shape, List.flatMap_cons, List.cons_append]
    exact List.cons_ne_nil _ _
  rw [Imdb.labelText, labelPairs_first, labelPairs_later, nodeLabels_eq, setText, sampleLabels, List.flatMap_append,
    List.tail_append_of_ne_nil present, opening, closing]
  simp only [List.cons_append, List.nil_append, List.append_assoc]

theorem RowStored.labelled (stored : RowStored board.fields row record)
    (labelled : ∃ cell ∈ board.cells row, isLabelType cell.2.1) :
    (record.metrics.filter metricTypeIsLabel).map metricPair ≠ [] := by
  obtain ⟨cell, member, labels⟩ := labelled
  rw [← stored.cells] at member
  obtain ⟨metric, there, rfl⟩ := List.mem_map.mp member
  rw [ne_eq, List.map_eq_nil_iff, List.filter_eq_nil_iff]
  intro none
  exact none metric there labels

theorem RowStored.labelText (stored : RowStored board.fields row record) (ctx : ScrapeContext)
    (labelled : ∃ cell ∈ board.cells row, isLabelType cell.2.1) :
    Imdb.labelText ctx record = setText (board.labels ctx row) := by
  rw [labelText_eq (stored.labelled labelled), stored.labels]

theorem RowStored.lines (stored : RowStored board.fields row record) (ctx : ScrapeContext)
    (labelled : ∃ cell ∈ board.cells row, isLabelType cell.2.1) :
    recordLines ctx board.name record = (board.rowSamples ctx row).map fun sample => sampleText sample ++ [newline] := by
  have space : ascii " " = [32] := rfl
  rw [recordLines, stored.labelText ctx labelled, Board.rowSamples, ← stored.cells, List.filter_map, List.map_map,
    List.map_map]
  refine List.map_congr_left fun metric _ => ?_
  simp only [metricLine, metricTail, sampleText, Function.comp, space, List.append_assoc, List.cons_append, List.nil_append]

theorem RowStored.serialisable (stored : RowStored board.fields row record) (showable : board.Showable ctx row) :
    Serialisable ctx record := by
  refine ⟨?_, ?_⟩
  · rw [LabelsFit, stored.labelText ctx showable.labelled]
    exact showable.fits
  · obtain ⟨cell, member, measured⟩ := showable.measured
    rw [← stored.cells] at member
    obtain ⟨metric, there, rfl⟩ := List.mem_map.mp member
    exact ⟨metric, there, measured⟩

theorem Stored.due (stored : Stored board table) (ctx : ScrapeContext) :
    List.Forall₂ (RowStored board.fields) (board.due ctx).1 (scheduled ctx table.records) ∧
      List.Forall₂ (RowStored board.fields) (board.due ctx).2 (Ingress.due (live ctx) table.records defaultPeriodRecordNum).2 := by
  rw [scheduled, ← due_shown]
  exact forall₂_due (fun row record stored => stored.live ctx) stored.rows defaultPeriodRecordNum

theorem flatMap_related {γ δ : Type} {related : α → β → Prop} {lefts : List α} {rights : List β} {left : α → List γ}
    {right : β → List δ} {change : γ → δ} (each : List.Forall₂ related lefts rights)
    (same : ∀ value other, value ∈ lefts → related value other → right other = (left value).map change) :
    rights.flatMap right = (lefts.flatMap left).map change := by
  induction each with
  | nil => rfl
  | @cons value other _ _ here later ih =>
      rw [List.flatMap_cons, List.flatMap_cons, List.map_append, same value other List.mem_cons_self here,
        ih fun value other member => same value other (List.mem_cons_of_mem _ member)]

theorem Stored.text (stored : Stored board table) (showable : ∀ row ∈ (board.due ctx).1, board.Showable ctx row) :
    tableText ctx table = board.text ctx := by
  have empty : table.records = [] ↔ board.rows = [] := by
    rw [← List.length_eq_zero_iff, ← stored.rows.length_eq, List.length_eq_zero_iff]
  rw [tableText, Board.text, samplesText, Board.samples, tableLines, stored.name,
    flatMap_related (stored.due ctx).1 fun row record member there => there.lines ctx (showable row member).labelled]
  simp only [empty]

theorem Stored.shown (stored : Stored board table) (ctx : ScrapeContext) :
    Stored (board.shown ctx) (table.withRecords (Ingress.due (live ctx) table.records defaultPeriodRecordNum).2) where
  name := stored.name
  loaded := by
    obtain ⟨metaRecord, loaded, fields⟩ := stored.loaded
    exact ⟨metaRecord, { loaded with consistent := loaded.consistent.drop (due_left_suffix _ _ _).sublist }, fields⟩
  capability := stored.capability
  rows := (stored.due ctx).2

theorem Database.page {mgr : DataBaseMgr} (database : Database boards mgr) (ctx : ScrapeContext)
    (showable : ∀ board ∈ boards, ∀ row ∈ (board.due ctx).1, board.Showable ctx row) :
    pageText ctx mgr.tables = boards.flatMap (Board.text ctx) ∧ AllSerialisable ctx mgr.tables := by
  obtain ⟨tables⟩ := database
  generalize mgr.tables = stored at tables
  induction tables with
  | nil => exact ⟨rfl, fun table member => by cases member⟩
  | @cons board table boards tables here later ih =>
      obtain ⟨shown, others⟩ := List.forall_mem_cons.mp showable
      obtain ⟨text, serialisable⟩ := ih others
      refine ⟨?_, List.forall_mem_cons.mpr ⟨?_, serialisable⟩⟩
      · rw [pageText, List.flatMap_cons, List.flatMap_cons, here.text shown, ← text, pageText]
      · intro record member
        obtain ⟨row, there, stored⟩ := Blocks.exists_left (here.due ctx).1 member
        exact stored.serialisable (shown row there)

inductive Event where
  | post (posting : Posting)
  | scrape (ctx : ScrapeContext) (maxLen : UInt32)

/-- What a line or a request does to the database, with the pages answered so
far. -/
def serve (state : DataBaseMgr × List Bytes) : Event → Option (DataBaseMgr × List Bytes)
  | .post posting => (storeLine state.1 posting.line posting.time).map fun stored => (stored.2, state.2)
  | .scrape ctx maxLen =>
      let scrape := dataBase2Prometheus ctx state.1.tables maxLen
      some ({ state.1 with tables := scrape.tables },
        if scrape.ret = 0 then state.2 ++ [scrape.text.take scrape.bufLen] else state.2)

/-- The same of the boards, with the samples shown so far. -/
def display (state : List Board × List (List Exposition.Sample)) : Event → List Board × List (List Exposition.Sample)
  | .post posting => (postOn state.1 posting, state.2)
  | .scrape ctx _ => (state.1.map (Board.shown ctx), state.2 ++ [state.1.flatMap (Board.samples ctx)])

/-- A posted line can be taken, and a page has room for samples that need no
escaping. -/
def Admissible (state : List Board × List (List Exposition.Sample)) : Event → Prop
  | .post posting => Acceptable state.1 posting
  | .scrape ctx maxLen =>
      (∀ board ∈ state.1, ∀ row ∈ (board.due ctx).1, board.Showable ctx row) ∧
      (∀ board ∈ state.1, ∀ sample ∈ board.samples ctx, Readable sample) ∧
      (state.1.flatMap (Board.text ctx)).length < maxLen.toNat ∧ maxLen.toNat < 2 ^ 31

/-- The lines of the page are read as the samples. -/
def PageReads (page : Bytes) (samples : List Exposition.Sample) : Prop :=
  (pageLines page).map Exposition.sample = samples.map some

theorem text_reads (readable : ∀ board ∈ boards, ∀ sample ∈ board.samples ctx, Readable sample) :
    PageReads (boards.flatMap (Board.text ctx)) (boards.flatMap (Board.samples ctx)) := by
  induction boards with
  | nil => rfl
  | cons board rest ih =>
      obtain ⟨here, later⟩ := List.forall_mem_cons.mp readable
      have behind := ih later
      rw [PageReads] at behind ⊢
      rw [List.flatMap_cons, List.flatMap_cons, List.map_append, ← behind, Board.text]
      split
      · rename_i none
        simp [Board.samples, Board.due, none, due]
      · rw [List.append_assoc, pageLines_samplesText here, List.singleton_append, ← List.nil_append (newline :: _),
          pageLines_append]
        rfl

theorem Database.scrapes {mgr : DataBaseMgr} {maxLen : UInt32} (database : Database boards mgr)
    (showable : ∀ board ∈ boards, ∀ row ∈ (board.due ctx).1, board.Showable ctx row)
    (fits : (boards.flatMap (Board.text ctx)).length < maxLen.toNat) (signed : maxLen.toNat < 2 ^ 31) :
    (dataBase2Prometheus ctx mgr.tables maxLen).ret = 0 ∧
      (dataBase2Prometheus ctx mgr.tables maxLen).text.take (dataBase2Prometheus ctx mgr.tables maxLen).bufLen =
        boards.flatMap (Board.text ctx) ∧
      Database (boards.map (Board.shown ctx)) { mgr with tables := (dataBase2Prometheus ctx mgr.tables maxLen).tables } := by
  obtain ⟨page, serialisable⟩ := database.page ctx showable
  obtain ⟨succeeded, text⟩ := exportTables_complete serialisable
    (fun _ _ _ found => Nat.lt_of_le_of_lt (firstDue_left_le found) signed) (page ▸ fits)
  refine ⟨succeeded, ?_, ⟨?_⟩⟩
  · rw [dataBase2Prometheus, exportTables_page succeeded, text, page]
  · rw [dataBase2Prometheus, exportTables_due succeeded]
    exact List.forall₂_map_left_iff.mpr (List.forall₂_map_right_iff.mpr
      (database.tables.imp fun board table stored => stored.shown ctx))

theorem Database.serves {mgr : DataBaseMgr} {pages : List Bytes} {shown : List (List Exposition.Sample)} {event : Event}
    (database : Database boards mgr) (before : List.Forall₂ PageReads pages shown)
    (admissible : Admissible (boards, shown) event) :
    ∃ after more, serve (mgr, pages) event = some (after, more) ∧ Database (display (boards, shown) event).1 after ∧
      List.Forall₂ PageReads more (display (boards, shown) event).2 := by
  cases event with
  | post posting =>
      obtain ⟨handle, after, taken, kept, _⟩ := database.posts admissible
      exact ⟨after, pages, by simp [serve, taken], kept, before⟩
  | scrape ctx maxLen =>
      obtain ⟨showable, readable, fits, signed⟩ := admissible
      obtain ⟨succeeded, page, kept⟩ := database.scrapes showable fits signed
      refine ⟨_, pages ++ [boards.flatMap (Board.text ctx)], ?_, kept, ?_⟩
      · simp only [serve, succeeded, if_true, page]
      · exact List.rel_append before (.cons (text_reads readable) .nil)

instance : Decidable (board.Showable ctx row) :=
  decidable_of_iff ((∃ cell ∈ board.cells row, isLabelType cell.2.1) ∧
      (∃ cell ∈ board.cells row, isPrometheusType cell.2.1) ∧ (setText (board.labels ctx row)).length < maxLabelsBufferSize)
    ⟨fun ⟨labelled, measured, fits⟩ => ⟨labelled, measured, fits⟩, fun shown => ⟨shown.labelled, shown.measured, shown.fits⟩⟩

end GalaGopher.Ingress
