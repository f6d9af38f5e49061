import GalaGopher.Imdb.Prometheus.Page

namespace GalaGopher.Imdb

open GalaGopher.Text GalaGopher.Data

variable {ctx : ScrapeContext} {table : Table} {tables : List Table} {room left : Nat} {name : Bytes}
  {record : Record}

/-- The first unexpired record in scrape order, with its table's name and the
room left by the tables before it, which hold nothing to export. -/
def firstDue (ctx : ScrapeContext) : List Table → Nat → Option (Bytes × Record × Nat)
  | [], _ => none
  | table :: rest, room =>
      match table.records.find? (live ctx) with
      | some record => some (table.name.text, record, room)
      | none => firstDue ctx rest (room - (tableText ctx table).length)

theorem firstDue_left_le (found : firstDue ctx tables room = some (name, record, left)) : left ≤ room := by
  induction tables generalizing room with
  | nil => simp [firstDue] at found
  | cons table rest ih =>
      simp only [firstDue] at found
      split at found
      · simp only [Option.some.injEq, Prod.mk.injEq] at found
        exact Nat.le_of_eq found.2.2.symm
      · exact Nat.le_trans (ih found) (Nat.sub_le _ _)

theorem not_started_of_no_room (spent : left = 0) : ¬ Started ctx name left record := by
  intro given
  obtain ⟨-, line, -, short⟩ := given
  rw [spent, toInt32_of_small (by decide)] at short
  omega

theorem tbl2Prometheus_first (found : table.records.find? (live ctx) = some record) (room : Nat) :
    (Started ctx table.name.text room record → record ∈ (tbl2Prometheus ctx table room).exported) ∧
    (¬ Started ctx table.name.text room record →
      (tbl2Prometheus ctx table room).ret = -1 ∧ (tbl2Prometheus ctx table room).exported = []) := by
  obtain ⟨exported, idle⟩ := exportRecords_first found table.name.text room
  have filled : ¬ table.records.length = 0 := by
    intro empty
    rw [List.eq_nil_of_length_eq_zero empty] at found
    simp at found
  simp only [tbl2Prometheus, hashRecordCount, filled, if_false]
  constructor
  · intro started
    split
    · exact exported started
    · exact exported started
  · intro stuck
    obtain ⟨unfinished, nothing⟩ := idle stuck
    simp [unfinished, nothing]

theorem tbl2Prometheus_idle (none : table.records.find? (live ctx) = none) (room : Nat) :
    (tbl2Prometheus ctx table room).ret = (tableText ctx table).length ∧
      (tbl2Prometheus ctx table room).exported = [] := by
  have stale : ∀ record ∈ table.records, live ctx record = false := by
    simpa using List.find?_eq_none.mp none
  have nothing : tableLines ctx table = [] := by
    have : table.records.filter (live ctx) = [] := List.filter_eq_nil_iff.mpr (by simpa using stale)
    rw [tableLines, scheduled, this]
    rfl
  have walk := exportRecords_of_expired stale table.name.text room
  cases shape : table.records with
  | nil => simp [tbl2Prometheus, hashRecordCount, tableText, shape]
  | cons record rest =>
      rw [shape] at walk
      simp [tbl2Prometheus, hashRecordCount, tableText, shape, walk, nothing]

/-- The first unexpired record decides whether a request touches anything that
has not expired. -/
theorem exportTables_first (found : firstDue ctx tables room = some (name, record, left)) :
    (Started ctx name left record → (name, record) ∈ (exportTables ctx tables room).exported) ∧
    (¬ Started ctx name left record →
      (exportTables ctx tables room).ret = -1 ∧ (exportTables ctx tables room).exported = []) := by
  induction tables generalizing room with
  | nil => simp [firstDue] at found
  | cons table rest ih =>
      simp only [firstDue] at found
      cases due : table.records.find? (live ctx) with
      | some head =>
          simp only [due, Option.some.injEq, Prod.mk.injEq] at found
          obtain ⟨rfl, rfl, rfl⟩ := found
          obtain ⟨begun, stuck⟩ := tbl2Prometheus_first due room
          simp only [exportTables]
          constructor
          · intro started
            split
            · simpa using begun started
            · exact List.mem_append_left _ (by simpa using begun started)
          · intro idle
            obtain ⟨failed, nothing⟩ := stuck idle
            simp [failed, nothing]
      | none =>
          simp only [due] at found
          obtain ⟨ret, nothing⟩ := tbl2Prometheus_idle due room
          have later := ih found
          simp only [exportTables, nothing, List.map_nil, List.nil_append]
          split
          · rename_i rejected
            have spent : left = 0 := by
              have := firstDue_left_le found
              omega
            exact ⟨fun started => absurd started (not_started_of_no_room spent), fun _ => ⟨rfl, rfl⟩⟩
          · simpa [ret] using later

theorem exportTables_idle (none : firstDue ctx tables room = none) :
    (exportTables ctx tables room).exported = [] := by
  induction tables generalizing room with
  | nil => rfl
  | cons table rest ih =>
      simp only [firstDue] at none
      split at none
      · contradiction
      · rename_i due
        obtain ⟨ret, nothing⟩ := tbl2Prometheus_idle due room
        simp only [exportTables, nothing, List.map_nil, List.nil_append]
        split
        · rfl
        · simpa [ret] using ih none

/-- Every record due in some table can be put on a page. -/
def AllSerialisable (ctx : ScrapeContext) (tables : List Table) : Prop :=
  ∀ table ∈ tables, ∀ record ∈ scheduled ctx table.records, Serialisable ctx record

instance (ctx : ScrapeContext) (tables : List Table) : Decidable (AllSerialisable ctx tables) :=
  inferInstanceAs (Decidable (∀ table ∈ tables, ∀ record ∈ scheduled ctx table.records, _))

/-- The room for the first line is taken for a positive `int`. -/
def SignedRoom (ctx : ScrapeContext) (tables : List Table) (room : Nat) : Prop :=
  ∀ name record left, firstDue ctx tables room = some (name, record, left) → left < 2 ^ 31

theorem tbl2Prometheus_complete
    (serialisable : ∀ record ∈ scheduled ctx table.records, Serialisable ctx record)
    (signed : ∀ record, table.records.find? (live ctx) = some record → room < 2 ^ 31)
    (fits : (tableText ctx table).length < room) :
    (tbl2Prometheus ctx table room).ret = (tableText ctx table).length ∧
      (tbl2Prometheus ctx table room).text = tableText ctx table := by
  by_cases empty : table.records = []
  · simp [tbl2Prometheus, hashRecordCount, tableText, empty]
  · have filled : ¬ table.records.length = 0 := fun zero => empty (List.eq_nil_of_length_eq_zero zero)
    rw [tableText, if_neg empty, List.length_append, List.length_singleton] at fits
    obtain ⟨finished, text⟩ := @exportRecords_complete ctx table.name.text table.records room 0
      serialisable (by
        intro due
        refine ⟨?_, by simpa [tableLines, scheduled] using Nat.lt_of_succ_lt fits⟩
        cases first : table.records.find? (live ctx) with
        | some record => exact signed record first
        | none =>
            have stale : table.records.filter (live ctx) = [] :=
              List.filter_eq_nil_iff.mpr (by simpa using List.find?_eq_none.mp first)
            simp [stale] at due)
    have lines : (exportRecords ctx table.name.text table.records room 0).text =
        (tableLines ctx table).flatten := text
    have newlineFits : [newline].take (room - (tableLines ctx table).flatten.length - 1) = [newline] :=
      List.take_of_length_le (by simp only [List.length_singleton]; omega)
    simp only [tbl2Prometheus, hashRecordCount, filled, if_false, finished, if_true, lines, newlineFits]
    simp [tableText, empty]

/-- A request whose records can all be serialised writes the whole page into a
buffer that can hold it. -/
theorem exportTables_complete (serialisable : AllSerialisable ctx tables)
    (signed : SignedRoom ctx tables room) (fits : (pageText ctx tables).length < room) :
    (exportTables ctx tables room).ret = 0 ∧
      (exportTables ctx tables room).text = pageText ctx tables := by
  induction tables generalizing room with
  | nil => exact ⟨rfl, rfl⟩
  | cons table rest ih =>
      have total : (pageText ctx (table :: rest)).length =
          (tableText ctx table).length + (pageText ctx rest).length := by
        simp [pageText]
      obtain ⟨ret, text⟩ := tbl2Prometheus_complete (serialisable table (by simp))
        (fun record due => signed table.name.text record room (by simp [firstDue, due])) (by omega)
      have restSigned : SignedRoom ctx rest (room - (tableText ctx table).length) := by
        intro name record left found
        cases due : table.records.find? (live ctx) with
        | none => exact signed name record left (by simp [firstDue, due, found])
        | some head =>
            have := signed table.name.text head room (by simp [firstDue, due])
            have := firstDue_left_le found
            omega
      obtain ⟨restRet, restText⟩ := ih (fun other member => serialisable other (by simp [member]))
        restSigned (by omega)
      have accepted : ¬ ((tbl2Prometheus ctx table room).ret < 0 ∨
          (tbl2Prometheus ctx table room).ret ≥ room) := by omega
      simp only [exportTables]
      rw [if_neg accepted]
      simp only [ret, Int.toNat_natCast, text]
      exact ⟨restRet, by rw [restText]; rfl⟩

end GalaGopher.Imdb
