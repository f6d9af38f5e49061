import GalaGopher.Data.Blocks
import GalaGopher.Imdb.Prometheus.Lines

namespace GalaGopher.Imdb

open GalaGopher.Text GalaGopher.Data

variable {ctx : ScrapeContext} {tableName : Bytes} {records : List Record} {room index : Nat}

/-- The unexpired records one scrape of a table is due to export. -/
def scheduled (ctx : ScrapeContext) (records : List Record) : List Record :=
  (records.filter (live ctx)).take defaultPeriodRecordNum

/-- A record's text is begun: at least its first line is written. -/
def Started (ctx : ScrapeContext) (tableName : Bytes) (room : Nat) (record : Record) : Prop :=
  LabelsFit ctx record ∧
    ∃ line, (recordLines ctx tableName record).head? = some line ∧ (line.length : Int) < toInt32 room

theorem rec2Prometheus_started_iff {record : Record} :
    rec2Prometheus ctx record room tableName ≠ [] ↔ Started ctx tableName room record := by
  rw [rec2Prometheus_eq, Started, ← takeFitting_started_iff]
  by_cases fits : LabelsFit ctx record
  · simp only [fits, if_true, true_and]
    constructor
    · intro written empty
      exact written (by rw [empty]; rfl)
    · intro taken empty
      obtain ⟨line, rest, cons⟩ := List.exists_cons_of_ne_nil taken
      have member : line ∈ recordLines ctx tableName record :=
        (takeFitting_front room _).subset (by rw [cons]; simp)
      have marked := (recordLines_shape member).1
      rw [cons, List.flatten_cons, List.append_eq_nil_iff] at empty
      simp [empty.1] at marked
  · simp [fits]

theorem exportRecords_nil (ctx : ScrapeContext) (tableName : Bytes) (room index : Nat) :
    exportRecords ctx tableName [] room index = { finished := true, text := [], exported := [], records := [] } := rfl

theorem exportRecords_cons (ctx : ScrapeContext) (tableName : Bytes) (record : Record) (rest : List Record)
    (room index : Nat) :
    exportRecords ctx tableName (record :: rest) room index =
      if index ≥ defaultPeriodRecordNum then
        { finished := true, text := [], exported := [], records := record :: rest }
      else if expired ctx record then exportRecords ctx tableName rest room index
      else
        let text := rec2Prometheus ctx record room tableName
        if text.length = 0 then
          { finished := false, text := [], exported := [], records := record :: rest }
        else
          let later := exportRecords ctx tableName rest (room - text.length) (index + 1)
          { later with text := text ++ later.text, exported := record :: later.exported } := rfl

theorem not_live_iff {record : Record} : live ctx record = false ↔ expired ctx record = true := by
  simp [live]

/-- The loop works from the head of the insertion order: what it passes is gone,
and of that the unexpired part was exported. -/
theorem exportRecords_split (ctx : ScrapeContext) (tableName : Bytes) (records : List Record)
    (room index : Nat) :
    ∃ passed, records = passed ++ (exportRecords ctx tableName records room index).records ∧
      (exportRecords ctx tableName records room index).exported = passed.filter (live ctx) := by
  induction records generalizing room index with
  | nil => exact ⟨[], rfl, rfl⟩
  | cons record rest ih =>
      simp only [exportRecords_cons]
      split
      · exact ⟨[], rfl, rfl⟩
      · split
        · rename_i stale
          obtain ⟨passed, split, exported⟩ := ih room index
          refine ⟨record :: passed, by rw [List.cons_append, ← split], ?_⟩
          rw [exported, List.filter_cons_of_neg (by simp [live, stale])]
        · rename_i fresh
          split
          · exact ⟨[], rfl, rfl⟩
          · obtain ⟨passed, split, exported⟩ :=
              ih (room - (rec2Prometheus ctx record room tableName).length) (index + 1)
            refine ⟨record :: passed, by rw [List.cons_append, ← split], ?_⟩
            rw [exported, List.filter_cons_of_pos (by simpa [live] using fresh)]

theorem exportRecords_finished
    (finished : (exportRecords ctx tableName records room index).finished = true) :
    (exportRecords ctx tableName records room index).exported =
      (records.filter (live ctx)).take (defaultPeriodRecordNum - index) := by
  induction records generalizing room index with
  | nil => simp [exportRecords_nil]
  | cons record rest ih =>
      by_cases full : index ≥ defaultPeriodRecordNum
      · have none : defaultPeriodRecordNum - index = 0 := by omega
        simp only [exportRecords_cons, full, if_true, none, List.take_zero]
      · cases stale : expired ctx record with
        | true =>
            simp only [exportRecords_cons, full, stale, if_false, if_true] at finished ⊢
            rw [ih finished, List.filter_cons_of_neg (by simp [live, stale])]
        | false =>
            have more : defaultPeriodRecordNum - index = defaultPeriodRecordNum - (index + 1) + 1 := by omega
            simp only [exportRecords_cons, full, stale, if_false, Bool.false_eq_true] at finished ⊢
            split at finished
            · contradiction
            · rename_i written
              rw [if_neg written, List.filter_cons_of_pos (by simp [live, stale]), more,
                List.take_succ_cons]
              exact congrArg (record :: ·) (ih finished)

/-- The loop stops short of the last record only at its quota. -/
theorem exportRecords_quota
    (finished : (exportRecords ctx tableName records room index).finished = true)
    (more : (exportRecords ctx tableName records room index).records ≠ []) :
    defaultPeriodRecordNum ≤ index + (exportRecords ctx tableName records room index).exported.length := by
  induction records generalizing room index with
  | nil => exact absurd rfl more
  | cons record rest ih =>
      simp only [exportRecords_cons] at finished more ⊢
      split at finished
      · rename_i full
        rw [if_pos full]
        exact Nat.le_add_right_of_le full
      · rename_i below
        rw [if_neg below] at more ⊢
        split at finished
        · rename_i stale
          rw [if_pos stale] at more ⊢
          exact ih finished more
        · rename_i fresh
          rw [if_neg fresh] at more ⊢
          split at finished
          · contradiction
          · rename_i written
            rw [if_neg written] at more ⊢
            have := ih finished more
            simp only [List.length_cons]
            omega

/-- Each exported record left a non-empty run of its first lines. -/
theorem exportRecords_blocks (ctx : ScrapeContext) (tableName : Bytes) (records : List Record)
    (room index : Nat) :
    ∃ blocks : List (List Bytes),
      List.Forall₂ (fun block record => block <+: recordLines ctx tableName record ∧ block ≠ [] ∧
        LabelsFit ctx record) blocks (exportRecords ctx tableName records room index).exported ∧
      (exportRecords ctx tableName records room index).text = blocks.flatten.flatten := by
  induction records generalizing room index with
  | nil => exact ⟨[], .nil, rfl⟩
  | cons record rest ih =>
      simp only [exportRecords_cons]
      split
      · exact ⟨[], .nil, rfl⟩
      · split
        · exact ih room index
        · split
          · exact ⟨[], .nil, rfl⟩
          · rename_i written
            obtain ⟨blocks, prefixes, text⟩ :=
              ih (room - (rec2Prometheus ctx record room tableName).length) (index + 1)
            have begun : rec2Prometheus ctx record room tableName ≠ [] :=
              fun empty => written (by rw [empty]; rfl)
            have started := rec2Prometheus_started_iff.mp begun
            refine ⟨takeFitting room (recordLines ctx tableName record) :: blocks,
              .cons ⟨takeFitting_front _ _, takeFitting_started_iff.mpr started.2, started.1⟩ prefixes, ?_⟩
            rw [List.flatten_cons, List.flatten_append, ← text, rec2Prometheus_eq, if_pos started.1]

theorem exportRecords_serialisable
    (finished : (exportRecords ctx tableName records room index).finished = true) :
    ∀ record ∈ (records.filter (live ctx)).take (defaultPeriodRecordNum - index),
      Serialisable ctx record := by
  obtain ⟨blocks, prefixes, -⟩ := exportRecords_blocks ctx tableName records room index
  rw [exportRecords_finished finished] at prefixes
  intro record member
  obtain ⟨block, -, front, nonempty, fit⟩ := Blocks.exists_left prefixes member
  refine ⟨fit, ?_⟩
  obtain ⟨line, rest, cons⟩ := List.exists_cons_of_ne_nil nonempty
  have lineMember : line ∈ recordLines ctx tableName record := front.subset (by rw [cons]; simp)
  obtain ⟨metric, metricMember, -⟩ := List.mem_map.mp lineMember
  exact ⟨metric, List.mem_filter.mp metricMember⟩

/-- The loop runs to its end, and the page gets every line due, when every
record due can be serialised and the lines fit as a whole. -/
theorem exportRecords_complete
    (serialisable : ∀ record ∈ (records.filter (live ctx)).take (defaultPeriodRecordNum - index),
      Serialisable ctx record)
    (fits : (records.filter (live ctx)).take (defaultPeriodRecordNum - index) ≠ [] →
      room < 2 ^ 31 ∧
        (((records.filter (live ctx)).take (defaultPeriodRecordNum - index)).flatMap
          (recordLines ctx tableName)).flatten.length < room) :
    (exportRecords ctx tableName records room index).finished = true ∧
      (exportRecords ctx tableName records room index).text =
        (((records.filter (live ctx)).take (defaultPeriodRecordNum - index)).flatMap
          (recordLines ctx tableName)).flatten := by
  induction records generalizing room index with
  | nil => simp [exportRecords_nil]
  | cons record rest ih =>
      by_cases full : index ≥ defaultPeriodRecordNum
      · have none : defaultPeriodRecordNum - index = 0 := by omega
        simp [exportRecords_cons, full, none]
      · cases stale : expired ctx record with
        | true =>
            rw [List.filter_cons_of_neg (by simp [live, stale])] at serialisable fits ⊢
            simpa only [exportRecords_cons, full, stale, if_false, if_true] using ih serialisable fits
        | false =>
            have more : defaultPeriodRecordNum - index = defaultPeriodRecordNum - (index + 1) + 1 := by omega
            rw [List.filter_cons_of_pos (by simp [live, stale]), more, List.take_succ_cons] at serialisable fits ⊢
            obtain ⟨signed, total⟩ := fits (by simp)
            rw [List.flatMap_cons, List.flatten_append, List.length_append] at total
            have able := serialisable record (by simp)
            have whole : rec2Prometheus ctx record room tableName =
                (recordLines ctx tableName record).flatten := by
              rw [rec2Prometheus_eq, if_pos able.1, takeFitting_of_fits signed (by omega)]
            have written : ¬ (rec2Prometheus ctx record room tableName).length = 0 := by
              obtain ⟨line, lines, cons⟩ := List.exists_cons_of_ne_nil (able.lines_nonempty tableName)
              have marked := (recordLines_shape (show line ∈ recordLines ctx tableName record by simp [cons])).1
              have positive := List.length_pos_of_mem marked
              rw [whole, cons, List.flatten_cons, List.length_append]
              omega
            obtain ⟨finished, text⟩ := @ih
              (room - (rec2Prometheus ctx record room tableName).length) (index + 1)
              (fun other member => serialisable other (by simp [member]))
              (fun _ => ⟨by omega, by rw [whole]; omega⟩)
            simp only [exportRecords_cons, full, stale, if_false, Bool.false_eq_true, written]
            exact ⟨finished, by rw [text, whole, List.flatMap_cons, List.flatten_append]⟩

/-- Nothing is due from expired records; they only leave the table. -/
theorem exportRecords_of_expired (stale : ∀ record ∈ records, live ctx record = false)
    (tableName : Bytes) (room : Nat) :
    exportRecords ctx tableName records room 0 =
      { finished := true, text := [], exported := [], records := [] } := by
  induction records with
  | nil => rfl
  | cons record rest ih =>
      have gone := not_live_iff.mp (stale record (by simp))
      simp only [exportRecords_cons, gone, if_true]
      exact ih fun other member => stale other (by simp [member])

/-- The first unexpired record decides whether anything leaves the table. -/
theorem exportRecords_first {record : Record} (found : records.find? (live ctx) = some record)
    (tableName : Bytes) (room : Nat) :
    (Started ctx tableName room record →
      record ∈ (exportRecords ctx tableName records room 0).exported) ∧
    (¬ Started ctx tableName room record →
      (exportRecords ctx tableName records room 0).finished = false ∧
        (exportRecords ctx tableName records room 0).exported = []) := by
  induction records with
  | nil => simp at found
  | cons head rest ih =>
      cases stale : expired ctx head with
      | true =>
          rw [List.find?_cons_of_neg (by simp [live, stale])] at found
          simpa [exportRecords_cons, stale] using ih found
      | false =>
          rw [List.find?_cons_of_pos (by simp [live, stale])] at found
          simp only [Option.some.injEq] at found
          subst found
          constructor
          · intro started
            have begun := rec2Prometheus_started_iff.mpr started
            simp [exportRecords_cons, stale, begun]
          · intro idle
            have empty := not_not.mp (mt rec2Prometheus_started_iff.mp idle)
            simp [exportRecords_cons, stale, empty]

/-- The walk gets past every record: the quota lasts for as long as there are
records, and each unexpired one finds room for its first line. -/
def Drains (ctx : ScrapeContext) (tableName : Bytes) : List Record → (room index : Nat) → Prop
  | [], _, _ => True
  | record :: rest, room, index =>
      index < defaultPeriodRecordNum ∧
        if expired ctx record then Drains ctx tableName rest room index
        else Started ctx tableName room record ∧
          Drains ctx tableName rest (room - (rec2Prometheus ctx record room tableName).length) (index + 1)

theorem exportRecords_drains_iff :
    (exportRecords ctx tableName records room index).records = [] ↔ Drains ctx tableName records room index := by
  induction records generalizing room index with
  | nil => simp [exportRecords_nil, Drains]
  | cons record rest ih =>
      simp only [exportRecords_cons, Drains]
      split
      · rename_i full
        simp [Nat.not_lt.mpr full]
      · rename_i below
        rw [and_iff_right (by omega)]
        split
        · exact ih
        · rw [← rec2Prometheus_started_iff]
          split
          · rename_i empty
            simp [List.eq_nil_of_length_eq_zero empty]
          · rename_i written
            rw [and_iff_right (fun empty => written (by rw [empty]; rfl))]
            exact ih

end GalaGopher.Imdb
