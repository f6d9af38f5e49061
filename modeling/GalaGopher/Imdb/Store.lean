import GalaGopher.Data.Runs
import GalaGopher.Imdb.Prometheus.Page

namespace GalaGopher.Imdb

open GalaGopher.Text GalaGopher.Data

inductive StoreEvent where
  | add (record : Record) (now : Int)
  | scrape (ctx : ScrapeContext) (maxLen : UInt32)

def StoreEvent.clock : StoreEvent → Int
  | .add _ now => now
  | .scrape ctx _ => ctx.now

def storeStep (table : Table) : StoreEvent → Table
  | .add record now => (tableAddRecord table record now).2
  | .scrape ctx maxLen => (tbl2Prometheus ctx table maxLen.toNat).table

abbrev StoreStep (table : Table) (event : StoreEvent) (after : Table) : Prop :=
  storeStep table event = after

variable {table : Table} {event : StoreEvent} {events : List StoreEvent} {name : Bytes}
  {capacity : Nat} {ctx : ScrapeContext} {room : Nat}

theorem tbl2Prometheus_kept (ctx : ScrapeContext) (table : Table) (room : Nat) :
    ∃ kept, (tbl2Prometheus ctx table room).table = table.withRecords kept ∧ kept <:+ table.records := by
  obtain ⟨passed, split, -⟩ := tbl2Prometheus_split ctx table room
  refine ⟨(tbl2Prometheus ctx table room).table.records, ?_, passed, split.symm⟩
  simp only [tbl2Prometheus]
  split
  · rfl
  · split
    · rfl
    · rfl

theorem storeStep_consistent (consistent : table.Consistent) (event : StoreEvent) :
    (storeStep table event).Consistent := by
  cases event with
  | add record now => exact consistent.add record now
  | scrape ctx maxLen =>
      obtain ⟨kept, drained, part⟩ := tbl2Prometheus_kept ctx table maxLen.toNat
      rw [storeStep, drained]
      exact consistent.drop part.sublist

theorem storeStep_capability (table : Table) (event : StoreEvent) :
    (storeStep table event).recordsCapability = table.recordsCapability := by
  cases event with
  | add record now =>
      rw [storeStep, tableAddRecord_eq]
      split
      · rfl
      · rfl
  | scrape ctx maxLen =>
      obtain ⟨kept, drained, -⟩ := tbl2Prometheus_kept ctx table maxLen.toNat
      rw [storeStep, drained, Table.withRecords_recordsCapability]

/-- What an add promises of the table it leaves. -/
structure AddEffect (table : Table) (record : Record) (now : Int) (ret : Int) (after : Table) : Prop where
  only : ret = 0 →
    after.records.filter (fun other => other.key = record.key) = [recordUpdateTime record now]
  others : ret = 0 → after.records.filter (fun other => other.key ≠ record.key) =
    table.records.filter fun other => other.key ≠ record.key
  unchanged : ret ≠ 0 → after.records = table.records

theorem Table.Consistent.addEffect (consistent : table.Consistent) (record : Record) (now : Int) :
    AddEffect table record now (tableAddRecord table record now).1 (tableAddRecord table record now).2 := by
  by_cases refused : table.Refuses record.key
  · rw [consistent.add_refused now refused]
    exact { only := by simp, others := by simp, unchanged := fun _ => rfl }
  · rw [consistent.add_accepted now refused]
    have distinct := consistent.distinct
    exact {
      only := fun _ => KeyedList.put_filter_same distinct (recordUpdateTime record now)
      others := fun _ => KeyedList.put_filter_other distinct (recordUpdateTime record now)
      unchanged := by simp }

/-- Every run keeps the keys distinct and the table within its capability, and
wherever it stops, an add replaces one key's record or changes nothing. -/
theorem store_run_consistent (run : Runs StoreStep (tableCreate name capacity) events table) :
    KeyedList.Distinct Record.key table.records ∧ table.records.length ≤ capacity ∧
      ∀ record now, AddEffect table record now
        (tableAddRecord table record now).1 (tableAddRecord table record now).2 := by
  have kept : table.Consistent ∧ table.recordsCapability = capacity := by
    apply Runs.invariant (fun table => table.Consistent ∧ table.recordsCapability = capacity) run
    · exact ⟨tableCreate_consistent name capacity, rfl⟩
    · intro state event after taken before
      subst after
      exact ⟨storeStep_consistent before.1 event, (storeStep_capability state event).trans before.2⟩
  obtain ⟨consistent, capability⟩ := kept
  exact ⟨consistent.distinct, capability ▸ consistent.bounded, consistent.addEffect⟩

/-- A key added twice into a table of one record, and a scrape. -/
theorem store_run_consistent_replaced :
    let record := sampleRecord "a" [sampleMetric "counter" "rx" "1"]
    let table := [.add record 0, .add record 1, .scrape sampleContext 512].foldl storeStep
      (tableCreate (ascii "link") 1)
    KeyedList.Distinct Record.key table.records ∧ table.records.length ≤ 1 := by
  intro record table
  have run := store_run_consistent (Runs.foldl storeStep (tableCreate (ascii "link") 1)
    [.add record 0, .add record 1, .scrape sampleContext 512])
  exact ⟨run.1, run.2.1⟩

def ByTime (records : List Record) : Prop :=
  records.Pairwise fun earlier later => earlier.updateTime ≤ later.updateTime

/-- Under a clock no earlier than any record's, a step keeps the order of time. -/
theorem storeStep_byTime (sorted : ByTime table.records)
    (past : ∀ record ∈ table.records, record.updateTime ≤ event.clock) :
    ByTime (storeStep table event).records ∧
      ∀ record ∈ (storeStep table event).records, record.updateTime ≤ event.clock := by
  cases event with
  | add record now =>
      rw [storeStep, tableAddRecord_eq]
      have part := KeyedList.remove_sublist Record.key record.key table.records
      split
      · exact ⟨sorted.sublist part, fun other member => past other (part.mem member)⟩
      · refine ⟨KeyedList.put_pairwise sorted past, ?_⟩
        intro other member
        rcases List.mem_append.mp member with earlier | last
        · exact past other (part.mem earlier)
        · rw [List.mem_singleton.mp last]
          exact Int.le_refl _
  | scrape ctx maxLen =>
      obtain ⟨kept, drained, part⟩ := tbl2Prometheus_kept ctx table maxLen.toNat
      rw [storeStep, drained]
      exact ⟨sorted.sublist part.sublist, fun other member => past other (part.subset member)⟩

theorem store_run_byTime (run : Runs StoreStep (tableCreate name capacity) events table)
    (clocks : (events.map StoreEvent.clock).Pairwise (· ≤ ·)) : ByTime table.records := by
  have kept := Runs.history (fun past table =>
      (past.map StoreEvent.clock).Pairwise (· ≤ ·) → ByTime table.records ∧
        ∀ record ∈ table.records, ∃ event ∈ past, record.updateTime ≤ event.clock) run
    (by simp [ByTime, tableCreate]) (by
      intro past state event after taken before clocks
      rw [List.map_append, List.pairwise_append] at clocks
      obtain ⟨pastClocks, -, later⟩ := clocks
      obtain ⟨sorted, stamped⟩ := before pastClocks
      subst after
      obtain ⟨afterSorted, afterStamped⟩ := storeStep_byTime sorted fun record member => by
        obtain ⟨earlier, earlierMember, stamp⟩ := stamped record member
        exact Int.le_trans stamp (later _ (List.mem_map_of_mem earlierMember) event.clock (by simp))
      exact ⟨afterSorted, fun record member => ⟨event, by simp, afterStamped record member⟩⟩)
  exact (kept clocks).1

/-- The quota cannot hide an expired record: what a finished scrape leaves is
no older than what it exported. -/
theorem tbl2Prometheus_fresh (sorted : ByTime table.records)
    (succeeded : 0 ≤ (tbl2Prometheus ctx table room).ret) :
    ∀ record ∈ (tbl2Prometheus ctx table room).table.records, live ctx record = true := by
  intro record member
  by_cases empty : table.records.length = 0
  · simp [tbl2Prometheus, hashRecordCount, List.eq_nil_of_length_eq_zero empty] at member
  · simp only [tbl2Prometheus, hashRecordCount, empty, if_false] at succeeded member
    split at succeeded
    · rename_i finished
      rw [if_pos finished] at member
      obtain ⟨passed, split, exported⟩ := exportRecords_split ctx table.name.text table.records room 0
      have quota := exportRecords_quota finished (List.ne_nil_of_mem member)
      obtain ⟨first, firstMember⟩ := List.exists_mem_of_length_pos
        (show 0 < (exportRecords ctx table.name.text table.records room 0).exported.length by
          simp only [defaultPeriodRecordNum] at quota
          omega)
      rw [exported] at firstMember
      obtain ⟨passedMember, fresh⟩ := List.mem_filter.mp firstMember
      have order : first.updateTime ≤ record.updateTime := by
        rw [ByTime, split] at sorted
        exact (List.pairwise_append.mp sorted).2.2 first passedMember record member
      simp only [live, expired, Bool.not_eq_true', decide_eq_false_iff_not] at fresh ⊢
      omega
    · contradiction

theorem tbl2Prometheus_exported_live :
    ∀ record ∈ (tbl2Prometheus ctx table room).exported, live ctx record = true := by
  obtain ⟨passed, -, exported⟩ := tbl2Prometheus_split ctx table room
  intro record member
  rw [exported] at member
  exact (List.mem_filter.mp member).2

/-- Under a clock that never runs back, tables stay in order of time, so a
successful scrape neither exports nor leaves an expired record. -/
theorem store_run_fresh (run : Runs StoreStep (tableCreate name capacity) events table)
    (clocks : (events.map StoreEvent.clock).Pairwise (· ≤ ·)) :
    ByTime table.records ∧ ∀ (ctx : ScrapeContext) (maxLen : UInt32),
      0 ≤ (tbl2Prometheus ctx table maxLen.toNat).ret →
        (∀ record ∈ (tbl2Prometheus ctx table maxLen.toNat).exported, expired ctx record = false) ∧
        ∀ record ∈ (tbl2Prometheus ctx table maxLen.toNat).table.records, expired ctx record = false := by
  have sorted := store_run_byTime run clocks
  have unexpired : ∀ {ctx record}, live ctx record = true → expired ctx record = false := by
    simp [live]
  exact ⟨sorted, fun ctx maxLen succeeded =>
    ⟨fun record member => unexpired (tbl2Prometheus_exported_live record member),
      fun record member => unexpired (tbl2Prometheus_fresh sorted succeeded record member)⟩⟩

/-- An add, a scrape with no room, and a scrape long after. -/
theorem store_run_fresh_expired :
    let record := sampleRecord "a" [sampleMetric "counter" "rx" "1"]
    let table := [.add record 0, .scrape sampleContext 0].foldl storeStep (tableCreate (ascii "link") 1)
    let late := { sampleContext with now := 100 }
    0 ≤ (tbl2Prometheus late table (512 : UInt32).toNat).ret ∧
      ∀ record ∈ (tbl2Prometheus late table (512 : UInt32).toNat).table.records,
        expired late record = false := by
  intro record table late
  have run := store_run_fresh (Runs.foldl storeStep (tableCreate (ascii "link") 1)
    [.add record 0, .scrape sampleContext 0]) (by decide)
  have succeeded : 0 ≤ (tbl2Prometheus late table (512 : UInt32).toNat).ret := by decide +kernel
  exact ⟨succeeded, (run.2 late 512 succeeded).2⟩

end GalaGopher.Imdb
