import GalaGopher.Imdb.Prometheus.Conformance
import GalaGopher.Ingress.Agreement
import GalaGopher.Ingress.Decode

namespace GalaGopher.Ingress

open GalaGopher.Text GalaGopher.Data GalaGopher.Imdb

/-! What the database is there for: of every table, the last row posted under
each key, until it is shown. -/

structure Row where
  values : List Bytes
  time : Int
deriving DecidableEq

structure Board where
  name : Bytes
  fields : List Metric
  capability : Nat
  rows : List Row
deriving DecidableEq

def Board.key (board : Board) (row : Row) : Bytes := probeKey board.fields row.values

/-- A full board takes no new key. -/
def Board.post (board : Board) (row : Row) : Board :=
  if board.key row ∉ board.rows.map board.key ∧ board.capability ≤ board.rows.length then board
  else { board with rows := KeyedList.put board.key row board.rows }

/-- A line of a probe, and the time it is taken in. -/
structure Posting where
  name : Bytes
  values : List Bytes
  terminated : Bool
  time : Int
deriving DecidableEq

def Posting.row (posting : Posting) : Row := ⟨posting.values, posting.time⟩

def Posting.line (posting : Posting) : Bytes := probeLine posting.name posting.values posting.terminated

def postOn (boards : List Board) (posting : Posting) : List Board :=
  match boards.findIdx? fun board => board.name = posting.name with
  | none => boards
  | some place => boards.modify place (·.post posting.row)

/-- The values are those of the board's columns, and none needs escaping. -/
structure Board.Takes (board : Board) (posting : Posting) : Prop where
  count : posting.values.length = board.fields.length
  keyed : ∃ field ∈ board.fields, isKey field
  plain : ∀ field ∈ board.fields, Metric.Plain field
  clean : ∀ value ∈ posting.values, value.length ≤ 511 ∧ bar ∉ value ∧ newline ∉ value ∧ percent ∉ value
  first : FirstValueKept posting.values posting.terminated

/-- Whatever board the line names can take it. -/
structure Acceptable (boards : List Board) (posting : Posting) : Prop where
  named : posting.name ≠ [] ∧ bar ∉ posting.name
  takes : ∀ board ∈ boards, board.name = posting.name → board.Takes posting

structure RowStored (fields : List Metric) (row : Row) (record : Record) : Prop where
  decoded : Decoded fields row.values record
  time : record.updateTime = row.time

structure Stored (board : Board) (table : Table) : Prop where
  name : table.name.text = board.name
  loaded : ∃ metaRecord, table.Loaded metaRecord ∧ metaRecord.metrics = board.fields
  capability : table.recordsCapability = board.capability
  rows : List.Forall₂ (RowStored board.fields) board.rows table.records

variable {board : Board} {table : Table} {row : Row} {boards : List Board} {tables : List Table} {posting : Posting}
  {mgr : DataBaseMgr} {metaRecord : Record}

theorem Stored.keys (stored : Stored board table) : table.records.map Record.key = board.rows.map board.key := by
  have rows := stored.rows
  generalize table.records = records, board.rows = shown at rows
  induction rows with
  | nil => rfl
  | cons first rest ih => rw [List.map_cons, List.map_cons, first.decoded.key, ih]; rfl

theorem Stored.refuses_iff (stored : Stored board table) (row : Row) :
    table.Refuses (board.key row) ↔
      board.key row ∉ board.rows.map board.key ∧ board.capability ≤ board.rows.length := by
  rw [Table.Refuses, stored.keys, stored.capability, stored.rows.length_eq]

/-- What the content of a line comes to in its table. -/
theorem Board.Takes.filled (takes : board.Takes posting) (loaded : table.Loaded metaRecord)
    (fields : metaRecord.metrics = board.fields) :
    table.recordKeySize ≠ 0 ∧
      contentValues ((bar :: fieldsText posting.values (if posting.terminated then [newline] else [])).splitOn bar) =
        lineValues posting.values posting.terminated ∧
      Printable (metaRecord.metrics.zip (lineValues posting.values posting.terminated)) ∧
      Decoded board.fields posting.values (metaRecord.filled table.recordKeySize (lineValues posting.values posting.terminated)) := by
  obtain ⟨field, member, key⟩ := takes.keyed
  have nonempty : posting.values ≠ [] := by
    intro none
    have counted := takes.count
    rw [none, List.length_nil] at counted
    exact absurd (List.length_pos_of_mem member) (by omega)
  have clean : ∀ value ∈ posting.values, bar ∉ value ∧ newline ∉ value :=
    fun value member => ⟨(takes.clean value member).2.1, (takes.clean value member).2.2.1⟩
  have keyed : table.recordKeySize ≠ 0 := by
    have some : 0 < metaRecord.metrics.countP Imdb.isKey := List.countP_pos_iff.mpr ⟨field, fields ▸ member, key⟩
    rw [loaded.keySize]
    omega
  obtain ⟨printable, decoded⟩ := filled_decoded loaded (takes.count.trans (by rw [fields])) nonempty
    (fun value member => (takes.clean value member).1) takes.first (fun value member => (takes.clean value member).2.2.2)
    (fields ▸ takes.plain)
  exact ⟨keyed, contentValues_line clean, printable, fields ▸ decoded⟩

/-- A line a board can take is stored as its row, or refused where the board
refuses it. -/
theorem Stored.insert {place : Nat} (stored : Stored board table) (takes : board.Takes posting)
    (loaded : table.Loaded metaRecord) (fields : metaRecord.metrics = board.fields) :
    ∃ handle after, insertValues mgr place table metaRecord (lineValues posting.values posting.terminated) posting.time =
        some (handle, after) ∧
      (after = mgr ∧ board.post posting.row = board ∨
        ∃ records, after = mgr.setTable place (table.withRecords records) ∧
          Stored (board.post posting.row) (table.withRecords records)) := by
  obtain ⟨_, _, printable, decoded⟩ := takes.filled loaded fields
  have key : (metaRecord.filled table.recordKeySize (lineValues posting.values posting.terminated)).key =
      board.key posting.row := decoded.key
  rw [insertValues, if_pos printable]
  by_cases refused : table.Refuses (board.key posting.row)
  · refine ⟨none, mgr, ?_, .inl ⟨rfl, ?_⟩⟩
    · simp only [key, refused, if_true]
    · rw [Board.post, if_pos ((stored.refuses_iff _).mp refused)]
  · let record := recordUpdateTime (metaRecord.filled table.recordKeySize (lineValues posting.values posting.terminated))
      posting.time
    have here : RowStored board.fields posting.row record := ⟨⟨decoded.metrics, decoded.key⟩, rfl⟩
    have room : ¬ table.Refuses record.key := key ▸ refused
    have accepted := loaded.consistent.add_accepted posting.time room
    have consistent := loaded.consistent.add record posting.time
    rw [accepted] at consistent
    refine ⟨some record, mgr.setTable place (table.withRecords (KeyedList.put Record.key record table.records)), ?_,
      .inr ⟨_, rfl, ?_⟩⟩
    · simp only [key, refused, if_false, record]
    · rw [Board.post, if_neg (mt (stored.refuses_iff posting.row).mpr refused)]
      exact {
        name := stored.name
        loaded := ⟨metaRecord, { loaded with consistent := consistent }, fields⟩
        capability := stored.capability
        rows := KeyedList.forall₂_put (fun _ _ shown => shown.decoded.key.symm) stored.rows here }

theorem findIdx?_related {α β : Type} {related : α → β → Prop} {left : α → Bool} {right : β → Bool} {lefts : List α}
    {rights : List β} (each : List.Forall₂ related lefts rights)
    (same : ∀ value other, related value other → left value = right other) : lefts.findIdx? left = rights.findIdx? right := by
  induction each with
  | nil => rfl
  | cons here later ih => rw [List.findIdx?_cons, List.findIdx?_cons, same _ _ here, ih]

theorem forall₂_replaced {α β : Type} {related : α → β → Prop} {lefts : List α} {rights : List β} {place : Nat}
    {change : α → α} {other : β} (each : List.Forall₂ related lefts rights)
    (here : ∀ value, lefts[place]? = some value → related (change value) other) :
    List.Forall₂ related (lefts.modify place change) (rights.set place other) := by
  induction each generalizing place with
  | nil => simp
  | cons first later ih =>
      cases place with
      | zero => exact .cons (here _ rfl) later
      | succ place => exact .cons first (ih here)

/-- A database whose tables store the boards. -/
structure Database (boards : List Board) (mgr : DataBaseMgr) : Prop where
  tables : List.Forall₂ Stored boards mgr.tables

theorem Database.find (database : Database boards mgr) (name : Bytes) :
    dataBaseMgrFindTable mgr name = boards.findIdx? fun board => board.name = name :=
  (findIdx?_related database.tables fun board table stored => by rw [stored.name]).symm

theorem getTableNameAndContent_long {name : Bytes} {size : Nat} (free : bar ∉ name) (long : size ≤ name.length) (rest : Bytes) :
    getTableNameAndContent (bar :: (name ++ bar :: rest)) size = none := by
  have stops : ∀ byte ∈ name, decide (byte ≠ bar) = true := by
    intro byte member
    apply decide_eq_true
    rintro rfl
    exact free member
  have front : (name ++ bar :: rest).takeWhile (· ≠ bar) = name := by
    rw [List.takeWhile_append_of_pos stops]
    simp
  simp only [getTableNameAndContent, front]
  rw [if_neg (by simp)]
  split
  · rfl
  · split
    · rfl
    · rfl

/-- No table has so long a name. -/
theorem Database.find_long (database : Database boards mgr) {name : Bytes} (long : 32 ≤ name.length) :
    boards.findIdx? (fun board => board.name = name) = none := by
  rw [List.findIdx?_eq_none_iff]
  intro board member
  obtain ⟨table, _, stored⟩ := Blocks.exists_left database.tables.flip member
  have fits := table.name.fits
  rw [decide_eq_false_iff_not]
  rintro rfl
  rw [← stored.name] at long
  omega

/-- Every line the boards can take is taken in, and leaves a database that
stores the boards with its row on them. -/
theorem Database.posts (database : Database boards mgr) (acceptable : Acceptable boards posting) :
    ∃ handle after, storeLine mgr posting.line posting.time = some (handle, after) ∧
      Database (postOn boards posting) after ∧ after.nodeInfo = mgr.nodeInfo := by
  by_cases long : 32 ≤ posting.name.length
  · have split := getTableNameAndContent_long acceptable.named.2 long
      (fieldsText posting.values (if posting.terminated then [newline] else []))
    refine ⟨none, mgr, ?_, ?_, rfl⟩
    · rw [storeLine, Posting.line, probeLine, split]
    · rw [postOn, database.find_long long]
      exact database
  · have split : getTableNameAndContent
        (bar :: (posting.name ++ bar :: fieldsText posting.values (if posting.terminated then [newline] else []))) _ = _ :=
      getTableNameAndContent_named acceptable.named.1 acceptable.named.2 (Nat.not_le.mp long)
    have found := database.find posting.name
    rw [storeLine, Posting.line, probeLine, split]
    simp only [found]
    rw [postOn]
    cases place : boards.findIdx? fun board => board.name = posting.name with
    | none => exact ⟨none, mgr, rfl, database, rfl⟩
    | some index =>
        obtain ⟨bound, named, -⟩ := List.findIdx?_eq_some_iff_getElem.mp place
        have bounded : index < mgr.tables.length := database.tables.length_eq ▸ bound
        have takes := acceptable.takes boards[index] (List.getElem_mem bound) (of_decide_eq_true named)
        have stored : Stored boards[index] mgr.tables[index] := database.tables.get bound bounded
        obtain ⟨metaRecord, loaded, fields⟩ := stored.loaded
        obtain ⟨keyed, contents, _, _⟩ := takes.filled loaded fields
        have there := List.getElem?_eq_getElem bounded
        obtain ⟨handle, after, inserted, kept⟩ :
            ∃ handle after, insertValues mgr index mgr.tables[index] metaRecord
              (lineValues posting.values posting.terminated) posting.time = some (handle, after) ∧ _ :=
          stored.insert takes loaded fields
        refine ⟨handle, after, ?_, ?_⟩
        · simp only [dataBaseMgrCreateRec_eq there loaded keyed, contents, inserted]
        · have same (board : Board) (found : boards[index]? = some board) : board = boards[index] :=
            Option.some.inj (found.symm.trans (List.getElem?_eq_getElem bound))
          rcases kept with ⟨rfl, unchanged⟩ | ⟨records, rfl, now⟩
          · refine ⟨⟨?_⟩, rfl⟩
            have whole : List.Forall₂ Stored (boards.modify index (·.post posting.row))
                (after.tables.set index after.tables[index]) :=
              forall₂_replaced database.tables fun board found => by rw [same board found, unchanged]; exact stored
            rwa [List.set_getElem_self] at whole
          · refine ⟨⟨?_⟩, rfl⟩
            exact forall₂_replaced database.tables fun board found => by rw [same board found]; exact now

end GalaGopher.Ingress
