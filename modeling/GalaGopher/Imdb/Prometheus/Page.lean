import GalaGopher.Imdb.Prometheus.Walk
import Mathlib.Data.Multiset.AddSub

namespace GalaGopher.Imdb

open GalaGopher.Text GalaGopher.Data

variable {ctx : ScrapeContext} {table : Table} {tables : List Table} {room : Nat}

/-- The lines one scrape of a table is due to write. -/
def tableLines (ctx : ScrapeContext) (table : Table) : List Bytes :=
  (scheduled ctx table.records).flatMap (recordLines ctx table.name.text)

/-- The complete text of a table: its lines and the closing newline. -/
def tableText (ctx : ScrapeContext) (table : Table) : Bytes :=
  if table.records = [] then [] else (tableLines ctx table).flatten ++ [newline]

def pageText (ctx : ScrapeContext) (tables : List Table) : Bytes :=
  tables.flatMap (tableText ctx)

def pageRecords (ctx : ScrapeContext) (tables : List Table) : List (Bytes × Record) :=
  tables.flatMap fun table => (scheduled ctx table.records).map (table.name.text, ·)

def namedLines (ctx : ScrapeContext) (named : Bytes × Record) : List Bytes :=
  recordLines ctx named.1 named.2

/-- A page cut into newline-terminated pieces among which every one of the
given lines has a piece of its own.  A piece may have newlines of its data
inside. -/
def Contains (page : Bytes) (lines : List Bytes) : Prop :=
  ∃ pieces : List Bytes, page = pieces.flatten ∧
    (∀ piece ∈ pieces, piece.getLast? = some newline) ∧ lines.Subperm pieces

/-- The unexpired records that left their tables between two states of the
database, each with its table's name. -/
def departed (ctx : ScrapeContext) (before after : List Table) : List (Bytes × Record) :=
  (before.zip after).flatMap fun pair =>
    ((pair.1.records.diff pair.2.records).filter (live ctx)).map (pair.1.name.text, ·)

theorem diff_suffix_perm {α : Type} [DecidableEq α] (passed kept : List α) :
    ((passed ++ kept).diff kept).Perm passed := by
  apply Multiset.coe_eq_coe.mp
  rw [← Multiset.coe_sub, ← Multiset.coe_add, Multiset.add_sub_cancel_right]

theorem tbl2Prometheus_split (ctx : ScrapeContext) (table : Table) (room : Nat) :
    ∃ passed, table.records = passed ++ (tbl2Prometheus ctx table room).table.records ∧
      (tbl2Prometheus ctx table room).exported = passed.filter (live ctx) := by
  obtain ⟨passed, split, exported⟩ := exportRecords_split ctx table.name.text table.records room 0
  simp only [tbl2Prometheus, hashRecordCount]
  split
  · exact ⟨[], rfl, rfl⟩
  · split
    · exact ⟨passed, split, exported⟩
    · exact ⟨passed, split, exported⟩

theorem tbl2Prometheus_name : (tbl2Prometheus ctx table room).table.name = table.name := by
  simp only [tbl2Prometheus]
  split
  · rfl
  · split <;> rfl

/-- What leaves a table unexpired is what the scrape counts as exported. -/
theorem tbl2Prometheus_departed (ctx : ScrapeContext) (table : Table) (room : Nat) :
    ((table.records.diff (tbl2Prometheus ctx table room).table.records).filter (live ctx)).Perm
      (tbl2Prometheus ctx table room).exported := by
  obtain ⟨passed, split, exported⟩ := tbl2Prometheus_split ctx table room
  rw [exported]
  refine List.Perm.filter _ ?_
  have perm := diff_suffix_perm passed (tbl2Prometheus ctx table room).table.records
  rwa [← split] at perm

theorem departed_self (ctx : ScrapeContext) (tables : List Table) : departed ctx tables tables = [] := by
  apply List.flatMap_eq_nil_iff.mpr
  intro pair member
  have same : pair.1 = pair.2 := by
    have := List.of_mem_zip member
    obtain ⟨index, bound, rfl⟩ := List.getElem_of_mem member
    simp
  have none : (pair.2.records.diff pair.2.records) = [] := by
    apply List.Perm.eq_nil
    simpa using diff_suffix_perm [] pair.2.records
  rw [same, none]
  rfl

theorem exportTables_departed (ctx : ScrapeContext) (tables : List Table) (room : Nat) :
    (departed ctx tables (exportTables ctx tables room).tables).Perm
      (exportTables ctx tables room).exported := by
  induction tables generalizing room with
  | nil => exact .refl _
  | cons table rest ih =>
      have head := (tbl2Prometheus_departed ctx table room).map (fun record => (table.name.text, record))
      simp only [exportTables]
      split
      · have unchanged := departed_self ctx rest
        simp only [departed, List.zip_cons_cons, List.flatMap_cons] at unchanged ⊢
        rw [unchanged, List.append_nil]
        exact head
      · simp only [departed, List.zip_cons_cons, List.flatMap_cons]
        exact head.append (ih _)

theorem pageRecords_lines (ctx : ScrapeContext) (tables : List Table) :
    (pageRecords ctx tables).flatMap (namedLines ctx) = tables.flatMap (tableLines ctx) := by
  simp only [pageRecords, List.flatMap_assoc, List.flatMap_map]
  rfl

/-- A page that holds part of what the tables are due to write: every record
due has lines, and counting tells whether any line was left out. -/
structure Written (ctx : ScrapeContext) (tables : List Table) (page : Bytes) : Prop where
  serialisable : ∀ table ∈ tables, ∀ record ∈ scheduled ctx table.records, Serialisable ctx record
  pieces : ∃ pieces : List Bytes, page = pieces.flatten ∧
    ∀ piece ∈ pieces, piece.getLast? = some newline
  fewer : page.count 103 ≤ (tables.flatMap (tableLines ctx)).flatten.count 103
  exact : (tables.flatMap (tableLines ctx)).flatten.count 103 ≤ page.count 103 →
    page = pageText ctx tables

theorem Written.nil (ctx : ScrapeContext) : Written ctx [] [] where
  serialisable := by simp
  pieces := ⟨[], rfl, by simp⟩
  fewer := by simp
  exact := fun _ => rfl

theorem Written.append {left right : List Table} {first second : Bytes}
    (before : Written ctx left first) (after : Written ctx right second) :
    Written ctx (left ++ right) (first ++ second) where
  serialisable := by
    intro table member
    rcases List.mem_append.mp member with earlier | later
    · exact before.serialisable table earlier
    · exact after.serialisable table later
  pieces := by
    obtain ⟨pieces, rfl, ended⟩ := before.pieces
    obtain ⟨more, rfl, moreEnded⟩ := after.pieces
    refine ⟨pieces ++ more, by rw [List.flatten_append], ?_⟩
    intro piece member
    rcases List.mem_append.mp member with earlier | later
    · exact ended piece earlier
    · exact moreEnded piece later
  fewer := by
    have := before.fewer
    have := after.fewer
    rw [List.flatMap_append, List.flatten_append, List.count_append, List.count_append]
    omega
  exact := by
    intro enough
    have := before.fewer
    have := after.fewer
    rw [List.flatMap_append, List.flatten_append, List.count_append, List.count_append] at enough
    rw [before.exact (by omega), after.exact (by omega), pageText, pageText, pageText,
      List.flatMap_append]

theorem exportRecords_written
    (finished : (exportRecords ctx table.name.text table.records room 0).finished = true)
    (nonempty : table.records ≠ []) :
    Written ctx [table]
      ((exportRecords ctx table.name.text table.records room 0).text ++ [newline]) := by
  obtain ⟨blocks, cut, text⟩ := exportRecords_blocks ctx table.name.text table.records room 0
  rw [exportRecords_finished finished] at cut
  have lines : ∀ line ∈ blocks.flatten,
      103 ∈ line ∧ line.getLast? = some newline := by
    intro line member
    obtain ⟨block, blockMember, lineMember⟩ := List.mem_flatten.mp member
    obtain ⟨record, -, front, -⟩ := Blocks.exists_left cut.flip blockMember
    exact recordLines_shape (front.subset lineMember)
  obtain ⟨fewer, exact⟩ := Blocks.cut_count (cut.imp fun _ _ holds => holds.1)
    (fun record _ line member => (recordLines_shape member).1)
  have unmarked : ([newline] : Bytes).count 103 = 0 := by decide
  have due : ([table].flatMap (tableLines ctx)) =
      (List.take (defaultPeriodRecordNum - 0) (table.records.filter (live ctx))).flatMap
        (recordLines ctx table.name.text) := by
    rw [List.flatMap_singleton]
    rfl
  exact {
    serialisable := by
      intro other member
      rw [List.mem_singleton] at member
      subst other
      exact exportRecords_serialisable finished
    pieces := ⟨blocks.flatten ++ [[newline]], by rw [List.flatten_append, text]; rfl, by
      intro piece member
      rcases List.mem_append.mp member with earlier | last
      · exact (lines piece earlier).2
      · rw [List.mem_singleton.mp last]
        rfl⟩
    fewer := by
      rw [due, List.count_append, unmarked, text]
      exact fewer
    exact := by
      intro enough
      rw [due, List.count_append, unmarked, text] at enough
      rw [text, exact enough, ← due, List.flatMap_singleton, pageText, List.flatMap_singleton,
        tableText, if_neg nonempty] }

/-- A scrape that is accepted walked to its end and had room for the closing
newline. -/
theorem tbl2Prometheus_walked (nonempty : table.records ≠ [])
    (accepted : ¬ ((tbl2Prometheus ctx table room).ret < 0 ∨ (tbl2Prometheus ctx table room).ret ≥ room)) :
    (exportRecords ctx table.name.text table.records room 0).finished = true ∧
      (tbl2Prometheus ctx table room).ret = (tbl2Prometheus ctx table room).text.length ∧
      (tbl2Prometheus ctx table room).exported =
        (exportRecords ctx table.name.text table.records room 0).exported ∧
      (tbl2Prometheus ctx table room).text =
        (exportRecords ctx table.name.text table.records room 0).text ++ [newline] := by
  have filled : ¬ table.records.length = 0 := fun zero => nonempty (List.eq_nil_of_length_eq_zero zero)
  simp only [tbl2Prometheus, hashRecordCount, filled, if_false] at accepted ⊢
  cases finished : (exportRecords ctx table.name.text table.records room 0).finished with
  | false => simp [finished] at accepted
  | true =>
      simp only [finished, if_true] at accepted ⊢
      have newlineFits : [newline].take
          (room - (exportRecords ctx table.name.text table.records room 0).text.length - 1) = [newline] :=
        List.take_of_length_le (by simp only [List.length_singleton]; omega)
      rw [newlineFits, List.length_append]
      exact ⟨trivial, rfl, trivial, rfl⟩

/-- A table whose scrape the database accepts. -/
theorem tbl2Prometheus_accepted
    (accepted : ¬ ((tbl2Prometheus ctx table room).ret < 0 ∨ (tbl2Prometheus ctx table room).ret ≥ room)) :
    (tbl2Prometheus ctx table room).ret = (tbl2Prometheus ctx table room).text.length ∧
      (tbl2Prometheus ctx table room).exported = scheduled ctx table.records ∧
      Written ctx [table] (tbl2Prometheus ctx table room).text := by
  by_cases empty : table.records = []
  · have none : scheduled ctx table.records = [] := by rw [empty]; rfl
    simp only [tbl2Prometheus, hashRecordCount, empty, List.length_nil, if_true]
    refine ⟨rfl, rfl, ?_⟩
    exact {
      serialisable := by simp [none]
      pieces := ⟨[], rfl, by simp⟩
      fewer := by simp
      exact := fun _ => by simp [pageText, tableText, empty] }
  · obtain ⟨finished, ret, exported, text⟩ := tbl2Prometheus_walked empty accepted
    refine ⟨ret, exported.trans (exportRecords_finished finished), ?_⟩
    rw [text]
    exact exportRecords_written finished empty

theorem exportTables_ret (ctx : ScrapeContext) (tables : List Table) (room : Nat) :
    (exportTables ctx tables room).ret = 0 ∨ (exportTables ctx tables room).ret = -1 := by
  induction tables generalizing room with
  | nil => exact .inl rfl
  | cons table rest ih =>
      simp only [exportTables]
      split
      · exact .inr rfl
      · exact ih _

/-- A successful scrape exported everything due, though perhaps not with all
its lines. -/
theorem exportTables_success (succeeded : (exportTables ctx tables room).ret = 0) :
    (exportTables ctx tables room).bufLen = (exportTables ctx tables room).text.length ∧
      (exportTables ctx tables room).exported = pageRecords ctx tables ∧
      Written ctx tables (exportTables ctx tables room).text ∧
      (tables ≠ [] → (exportTables ctx tables room).text.length < room) := by
  induction tables generalizing room with
  | nil => exact ⟨rfl, rfl, .nil ctx, fun absurd => absurd.elim rfl⟩
  | cons table rest ih =>
      simp only [exportTables] at succeeded ⊢
      split at succeeded
      · contradiction
      · rename_i accepted
        obtain ⟨length, exported, written⟩ := tbl2Prometheus_accepted accepted
        obtain ⟨restLength, restExported, restWritten, short⟩ := ih succeeded
        rw [if_neg accepted]
        have total : (tbl2Prometheus ctx table room).ret.toNat =
            (tbl2Prometheus ctx table room).text.length := by rw [length]; rfl
        simp only [total] at restLength restExported restWritten short ⊢
        refine ⟨by rw [List.length_append, restLength], ?_, written.append restWritten, fun _ => ?_⟩
        · rw [exported, restExported]
          rfl
        · rw [List.length_append]
          cases rest with
          | nil =>
              simp only [exportTables, List.length_nil]
              omega
          | cons next others =>
              have := short (by simp)
              omega

end GalaGopher.Imdb
