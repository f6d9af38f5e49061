import GalaGopher.Data.Ledger
import GalaGopher.Imdb.Prometheus.Scrape
import GalaGopher.Imdb.Store

namespace GalaGopher.Imdb

open GalaGopher.Text GalaGopher.Data

/-- A table with the ledger of its record versions and what its scrapes
answered and wrote. -/
structure StoreHistory where
  table : Table
  ledger : Ledger ScrapeContext Record
  pages : List (Int × Bytes)

def StoreHistory.created (name : Bytes) (capacity : Nat) : StoreHistory where
  table := tableCreate name capacity
  ledger := .empty
  pages := []

def historyStep (history : StoreHistory) : StoreEvent → StoreHistory
  | .add record now =>
      let (ret, table) := tableAddRecord history.table record now
      if ret ≠ 0 then { history with table }
      else { history with table, ledger := history.ledger.put Record.key (recordUpdateTime record now) }
  | .scrape ctx maxLen =>
      let scrape := tbl2Prometheus ctx history.table maxLen.toNat
      let count := history.table.records.length - scrape.table.records.length
      { table := scrape.table
        ledger := history.ledger.drain live ctx count
        pages := history.pages ++ [(scrape.ret, scrape.text)] }

/-- The text due fits the size the source takes the buffer for. -/
def BufferSuffices (ctx : ScrapeContext) (table : Table) (maxLen : UInt32) : Prop :=
  ((tableText ctx table).length : Int) < toInt32 maxLen.toNat

/-- Records that can be serialised go in, and buffers large enough are offered. -/
def Admissible (nodeInfo : NodeInfo) (history : StoreHistory) : StoreEvent → Prop
  | .add record _ => ∀ ctx : ScrapeContext, ctx.nodeInfo = nodeInfo → Serialisable ctx record
  | .scrape ctx maxLen => ctx.nodeInfo = nodeInfo ∧ BufferSuffices ctx history.table maxLen

def HistoryStep (nodeInfo : NodeInfo) (history : StoreHistory) (event : StoreEvent)
    (after : StoreHistory) : Prop :=
  Admissible nodeInfo history event ∧ historyStep history event = after

variable {nodeInfo : NodeInfo} {history after last : StoreHistory} {event : StoreEvent}
  {events later : List StoreEvent} {name : Bytes} {capacity : Nat} {ctx : ScrapeContext}
  {maxLen : UInt32}

/-- A scrape that succeeded with the complete lines of a batch, and nothing
else but the newline that closes them. -/
def PageOf (tableName : Bytes) (page : Int × Bytes) (batch : ScrapeContext × List (Version Record)) : Prop :=
  page.1 = page.2.length ∧ ∃ closing, (closing = [] ∨ closing = [newline]) ∧
    page.2 = (batch.2.flatMap fun version => recordLines batch.1 tableName version.value).flatten ++ closing

/-- What every step keeps. -/
structure StoreHistory.Faithful (nodeInfo : NodeInfo) (name : Bytes) (history : StoreHistory) : Prop where
  named : history.table.name = .ofText 32 name
  consistent : history.table.Consistent
  stored : history.ledger.values = history.table.records
  able : ∀ record ∈ history.table.records, ∀ ctx : ScrapeContext, ctx.nodeInfo = nodeInfo →
    Serialisable ctx record
  sound : history.ledger.Sound Record.key live
  pages : List.Forall₂ (PageOf (CharArray.ofText 32 name).text) history.pages history.ledger.emitted

theorem created_faithful (nodeInfo : NodeInfo) (name : Bytes) (capacity : Nat) :
    (StoreHistory.created name capacity).Faithful nodeInfo name where
  named := rfl
  consistent := tableCreate_consistent name capacity
  stored := rfl
  able := by simp [StoreHistory.created, tableCreate]
  sound := Ledger.empty_sound
  pages := .nil

theorem Serialisable.of_nodeInfo {other : ScrapeContext} {record : Record}
    (same : ctx.nodeInfo = other.nodeInfo) (able : Serialisable other record) : Serialisable ctx record := by
  simpa only [Serialisable, LabelsFit, labelText, same] using able

/-- Only its metrics decide whether a record can be serialised. -/
theorem serialisable_recordUpdateTime {record : Record} {seconds : Int}
    (able : Serialisable ctx record) : Serialisable ctx (recordUpdateTime record seconds) := able

theorem StoreHistory.Faithful.add (faithful : history.Faithful nodeInfo name) {record : Record} {now : Int}
    (able : ∀ ctx : ScrapeContext, ctx.nodeInfo = nodeInfo → Serialisable ctx record) :
    (historyStep history (.add record now)).Faithful nodeInfo name := by
  by_cases refused : history.table.Refuses record.key
  · simp only [historyStep, faithful.consistent.add_refused now refused]
    exact faithful
  · have accepted := faithful.consistent.add_accepted now refused
    have kept := faithful.consistent.add record now
    have distinct : KeyedList.Distinct Record.key history.ledger.values := by
      rw [faithful.stored]
      exact faithful.consistent.distinct
    rw [accepted] at kept
    simp only [historyStep, accepted, ne_eq, not_true_eq_false, if_false]
    exact {
      named := faithful.named
      consistent := kept
      stored := by
        rw [Ledger.put_values distinct, faithful.stored]
        rfl
      able := by
        intro other member ctx node
        rcases List.mem_append.mp member with earlier | added
        · exact faithful.able other ((KeyedList.remove_sublist _ _ _).mem earlier) ctx node
        · rw [List.mem_singleton.mp added]
          exact serialisable_recordUpdateTime (able ctx node)
      sound := Ledger.put_sound faithful.sound _
      pages := faithful.pages }

/-- A scrape with an ample buffer: what passes is the front of the table, its
unexpired part is the batch due, and the page is the table's full text. -/
theorem StoreHistory.Faithful.scraped (faithful : history.Faithful nodeInfo name)
    (node : ctx.nodeInfo = nodeInfo) (ample : BufferSuffices ctx history.table maxLen) :
    let scrape := tbl2Prometheus ctx history.table maxLen.toNat
    let count := history.table.records.length - scrape.table.records.length
    scrape.ret = (tableText ctx history.table).length ∧ scrape.text = tableText ctx history.table ∧
      scrape.table.records = history.table.records.drop count ∧
      (history.table.records.take count).filter (live ctx) = scheduled ctx history.table.records := by
  intro scrape count
  obtain ⟨signed, fits⟩ := (lt_toInt32_iff maxLen.toNat_lt).mp ample
  have able : ∀ record ∈ scheduled ctx history.table.records, Serialisable ctx record :=
    fun record member => faithful.able record
      (List.mem_filter.mp ((List.take_sublist _ _).mem member)).1 ctx node
  obtain ⟨ret, text⟩ := tbl2Prometheus_complete able (fun _ _ => signed) fits
  obtain ⟨passed, split, exported⟩ := tbl2Prometheus_split ctx history.table maxLen.toNat
  have length : count = passed.length := by
    have := congrArg List.length split
    rw [List.length_append] at this
    simp only [count, scrape]
    omega
  have accepted : ¬ ((tbl2Prometheus ctx history.table maxLen.toNat).ret < 0 ∨
      (tbl2Prometheus ctx history.table maxLen.toNat).ret ≥ maxLen.toNat) := by omega
  have due := (tbl2Prometheus_accepted accepted).2.1
  refine ⟨ret, text, ?_, ?_⟩
  · rw [length, split, List.drop_left]
  · rw [length, ← due, exported]
    congr 1
    rw [split, List.take_left]

theorem StoreHistory.Faithful.scrape (faithful : history.Faithful nodeInfo name)
    (node : ctx.nodeInfo = nodeInfo) (ample : BufferSuffices ctx history.table maxLen) :
    (historyStep history (.scrape ctx maxLen)).Faithful nodeInfo name := by
  obtain ⟨ret, text, kept, exported⟩ := faithful.scraped node ample
  obtain ⟨suffix, drained, part⟩ := tbl2Prometheus_kept ctx history.table maxLen.toNat
  have tableName : history.table.name.text = (CharArray.ofText 32 name).text := by rw [faithful.named]
  exact {
    named := tbl2Prometheus_name.trans faithful.named
    consistent := storeStep_consistent faithful.consistent (.scrape ctx maxLen)
    stored := by
      refine (Ledger.drain_values ctx _).trans ?_
      rw [faithful.stored]
      exact kept.symm
    able := by
      intro record member
      have stored : record ∈ (tbl2Prometheus ctx history.table maxLen.toNat).table.records := member
      rw [kept] at stored
      exact faithful.able record ((List.drop_sublist _ _).mem stored)
    sound := Ledger.drain_sound faithful.sound ctx _
    pages := by
      refine List.rel_append faithful.pages (.cons ?_ .nil)
      rw [← faithful.stored] at exported
      simp only [Ledger.values, ← List.map_take, List.filter_map] at exported
      have lines : tableLines ctx history.table =
          ((history.ledger.stored.take (history.table.records.length -
            (tbl2Prometheus ctx history.table maxLen.toNat).table.records.length)).filter
              fun version => live ctx version.value).flatMap
                fun version => recordLines ctx history.table.name.text version.value := by
        rw [tableLines, ← faithful.stored]
        simp only [Ledger.values, ← exported, List.flatMap_map]
        rfl
      refine ⟨by rw [ret, text], ?_⟩
      rw [text, tableText, lines, tableName]
      split
      · rename_i empty
        refine ⟨[], .inl rfl, ?_⟩
        have none : history.ledger.stored = [] := by
          have := faithful.stored
          rw [empty] at this
          exact List.map_eq_nil_iff.mp this
        simp [none]
      · exact ⟨[newline], .inr rfl, rfl⟩ }

theorem HistoryStep.faithful (taken : HistoryStep nodeInfo history event after)
    (faithful : history.Faithful nodeInfo name) : after.Faithful nodeInfo name := by
  obtain ⟨admissible, rfl⟩ := taken
  cases event with
  | add record now => exact faithful.add admissible
  | scrape ctx maxLen => exact faithful.scrape admissible.1 admissible.2

theorem history_run_faithful
    (run : Runs (HistoryStep nodeInfo) (StoreHistory.created name capacity) events history) :
    history.Faithful nodeInfo name :=
  run.invariant (StoreHistory.Faithful nodeInfo name) (created_faithful nodeInfo name capacity)
    fun _ _ _ taken before => taken.faithful before

/-- The versions a scrape at some clock reading finds unexpired, oldest first. -/
def StoreHistory.liveVersions (ctx : ScrapeContext) (history : StoreHistory) : List (Version Record) :=
  history.ledger.stored.filter fun version => live ctx version.value

theorem StoreHistory.Faithful.scrape_takes (faithful : history.Faithful nodeInfo name)
    (taken : HistoryStep nodeInfo history (.scrape ctx maxLen) after) :
    after.ledger.emitted = history.ledger.emitted ++
        [(ctx, (history.liveVersions ctx).take defaultPeriodRecordNum)] ∧
      after.liveVersions ctx = (history.liveVersions ctx).drop defaultPeriodRecordNum := by
  obtain ⟨⟨node, ample⟩, rfl⟩ := taken
  obtain ⟨-, -, -, exported⟩ := faithful.scraped node ample
  rw [← faithful.stored] at exported
  obtain ⟨oldest, rest⟩ := Ledger.drain_quota live history.ledger exported
  rw [faithful.stored] at oldest rest
  refine ⟨?_, rest⟩
  rw [StoreHistory.liveVersions, ← oldest]
  rfl

/-- Scrapes in a row at one clock reading work off the live versions in order. -/
theorem StoreHistory.Faithful.scrapes_take (faithful : history.Faithful nodeInfo name)
    (run : Runs (HistoryStep nodeInfo) history later last)
    (scrapes : ∀ event ∈ later, ∃ maxLen, event = .scrape ctx maxLen) :
    last.Faithful nodeInfo name ∧
    ∃ batches, last.ledger.emitted = history.ledger.emitted ++ batches ∧
      batches.flatMap Prod.snd = (history.liveVersions ctx).take (defaultPeriodRecordNum * later.length) ∧
      last.liveVersions ctx = (history.liveVersions ctx).drop (defaultPeriodRecordNum * later.length) := by
  induction run with
  | start => exact ⟨faithful, [], by simp⟩
  | next earlier taken ih =>
      obtain ⟨before, batches, emitted, texts, rest⟩ := ih fun event member => scrapes event (by simp [member])
      obtain ⟨maxLen, rfl⟩ := scrapes _ (List.mem_append_right _ (List.mem_singleton_self _))
      obtain ⟨batch, left⟩ := before.scrape_takes taken
      refine ⟨taken.faithful before, batches ++ [_], by rw [batch, emitted, List.append_assoc], ?_, ?_⟩
      · rw [List.flatMap_append, List.flatMap_singleton, texts, rest, List.length_append,
          List.length_singleton, Nat.mul_add, Nat.mul_one, List.take_add]
      · rw [left, rest, List.drop_drop, List.length_append, List.length_singleton, Nat.mul_add, Nat.mul_one]

/-- Each version of a record is exported by one scrape, in the order of the
adds, unless it was replaced under its key or expired first; it leaves as its
complete lines.  Scrapes in a row drain the oldest live versions, a quota each. -/
theorem store_exports_once
    (run : Runs (HistoryStep nodeInfo) (StoreHistory.created name capacity) events history) :
    history.ledger.values = history.table.records ∧
    history.ledger.Sound Record.key live ∧
    List.Forall₂ (PageOf history.table.name.text) history.pages history.ledger.emitted ∧
    ∀ (ctx : ScrapeContext) (later : List StoreEvent) (last : StoreHistory),
      Runs (HistoryStep nodeInfo) history later last →
      (∀ event ∈ later, ∃ maxLen, event = .scrape ctx maxLen) →
      ∃ batches, last.ledger.emitted = history.ledger.emitted ++ batches ∧
        batches.flatMap Prod.snd = (history.liveVersions ctx).take
          (min (defaultPeriodRecordNum * later.length) (history.liveVersions ctx).length) := by
  have faithful := history_run_faithful run
  refine ⟨faithful.stored, faithful.sound, by rw [faithful.named]; exact faithful.pages, ?_⟩
  intro ctx later last scraping scrapes
  obtain ⟨-, batches, emitted, texts, -⟩ := faithful.scrapes_take scraping scrapes
  exact ⟨batches, emitted, by rw [texts, ← List.take_eq_take_min]⟩

def sampleCounter (key value : String) : Record := sampleRecord key [sampleMetric "counter" "rx" value]

/-- Three records, the second out of date and the first replaced, leave with two
scrapes. -/
theorem store_exports_once_replaced :
    let first := historyStep (.created (ascii "link") 3) (.add (sampleCounter "a" "1") 0)
    let second := historyStep first (.add (sampleCounter "b" "2") (-90))
    let third := historyStep second (.add (sampleCounter "c" "3") 0)
    let filled := historyStep third (.add (sampleCounter "a" "4") 0)
    let scraped := historyStep filled (.scrape sampleContext 512)
    let drained := historyStep scraped (.scrape sampleContext 512)
    (filled.liveVersions sampleContext).map (fun version => version.value.key) = [ascii "c", ascii "a"] ∧
      drained.ledger.values = drained.table.records ∧ drained.ledger.Sound Record.key live ∧
      List.Forall₂ (PageOf drained.table.name.text) drained.pages drained.ledger.emitted ∧
      ∃ batches, drained.ledger.emitted = filled.ledger.emitted ++ batches ∧
        batches.flatMap Prod.snd = (filled.liveVersions sampleContext).take
          (min (defaultPeriodRecordNum * 2) (filled.liveVersions sampleContext).length) := by
  intro first second third filled scraped drained
  have able {record : Record} (serialisable : Serialisable sampleContext record) (history : StoreHistory) (now : Int) :
      HistoryStep sampleContext.nodeInfo history (.add record now) (historyStep history (.add record now)) :=
    ⟨fun _ node => Serialisable.of_nodeInfo node serialisable, rfl⟩
  have begun : Runs (HistoryStep sampleContext.nodeInfo) (.created (ascii "link") 3) _ second :=
    .next (.next .start (able (by decide +kernel) _ 0)) (able (by decide +kernel) first (-90))
  have fills : Runs (HistoryStep sampleContext.nodeInfo) (.created (ascii "link") 3) _ filled :=
    .next (.next begun (able (by decide +kernel) second 0)) (able (by decide +kernel) third 0)
  have ample : HistoryStep sampleContext.nodeInfo filled (.scrape sampleContext 512) scraped := by
    refine ⟨⟨rfl, ?_⟩, Eq.refl scraped⟩
    change ((tableText sampleContext filled.table).length : Int) < toInt32 (512 : UInt32).toNat
    decide +kernel
  have spare : HistoryStep sampleContext.nodeInfo scraped (.scrape sampleContext 512) drained := by
    refine ⟨⟨rfl, ?_⟩, Eq.refl drained⟩
    change ((tableText sampleContext scraped.table).length : Int) < toInt32 (512 : UInt32).toNat
    decide +kernel
  have drains : Runs (HistoryStep sampleContext.nodeInfo) filled _ drained := .next (.next .start ample) spare
  have whole := store_exports_once (fills.trans drains)
  refine ⟨by decide +kernel, whole.1, whole.2.1, whole.2.2.1, (store_exports_once fills).2.2.2 sampleContext _ drained drains ?_⟩
  intro event member
  simp only [List.nil_append, List.cons_append, List.mem_cons, List.not_mem_nil, or_false, or_self] at member
  exact ⟨512, member⟩

end GalaGopher.Imdb
