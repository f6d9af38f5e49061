import GalaGopher.Imdb.Json.Keyless
import GalaGopher.Imdb.Json.Record
import GalaGopher.Ingress.Board
import GalaGopher.Ingress.Ownership
import GalaGopher.Ingress.Threads

namespace GalaGopher.Ingress

open GalaGopher.Text GalaGopher.Data GalaGopher.Channel GalaGopher.Imdb

def rowPairs (nodeInfo : NodeInfo) (board : Board) (values : List Bytes) : List (Bytes × Bytes) :=
  (ascii "machine_id", nodeInfo.machineId.text) :: (ascii "hostname", nodeInfo.hostName.text) ::
    (ascii "table_name", board.name) :: (board.fields.zip values).map fun pair => (pair.1.name.text, orNull pair.2)

def rowText (nodeInfo : NodeInfo) (board : Board) (values : List Bytes) (clock : Int) : Bytes :=
  opening clock ++ (rowPairs nodeInfo board values).flatMap jsonPair ++ ascii "\x7d"

def rowObject (nodeInfo : NodeInfo) (board : Board) (values : List Bytes) (clock : Int) : Json :=
  .object ((ascii "timestamp", .number (decimal (clock * 1000))) :: (rowPairs nodeInfo board values).map stringMember)

/-- The message is the object of the line's row, or where it is too long by a
byte or two, the front of that object. -/
structure Conveys (nodeInfo : NodeInfo) (boards : List Board) (line jsonStr : Bytes) : Prop where
  row : ∃ board ∈ boards, ∃ posting : Posting, ∃ clock : Int, posting.name = board.name ∧ line = posting.line ∧
    jsonStr = (rowText nodeInfo board posting.values clock).take (maxJsonStrLen - 1) ∧
    (rowText nodeInfo board posting.values clock).length ≤ maxJsonStrLen + 1 ∧
    ((rowText nodeInfo board posting.values clock).length < maxJsonStrLen →
      (json jsonStr = some (rowObject nodeInfo board posting.values clock) ↔
        ∀ pair ∈ rowPairs nodeInfo board posting.values, Pastes pair.1 ∧ Pastes pair.2))

/-- A line that no table can be found for, or one of a table of metrics, with
values it can take. -/
def Postable (boards : List Board) (line : Bytes) : Prop :=
  getTableNameAndContent line 32 = none ∨
    ∃ posting : Posting, line = posting.line ∧ posting.name ≠ ascii "event" ∧ Acceptable boards posting

structure Describes (board : Board) (table : Table) : Prop where
  name : table.name.text = board.name
  loaded : ∃ metaRecord, table.Loaded metaRecord ∧ metaRecord.metrics = board.fields

structure Described (nodeInfo : NodeInfo) (boards : List Board) (mgr : DataBaseMgr) : Prop where
  nodeInfo : mgr.nodeInfo = nodeInfo
  tables : List.Forall₂ Describes boards mgr.tables

variable {nodeInfo : NodeInfo} {boards : List Board} {board : Board} {mgr after : DataBaseMgr} {table : Table}
  {metaRecord record : Record} {posting : Posting} {line jsonStr : Bytes} {now clock : Int} {position : Nat}

theorem recordPairs_decoded (name : table.name.text = board.name) (decoded : Decoded board.fields posting.values record) :
    recordPairs nodeInfo table record = rowPairs nodeInfo board posting.values := by
  have pairs := congrArg (List.map fun shown : Bytes × Bytes × Bytes => (shown.1, shown.2.2)) decoded.metrics
  rw [List.map_map, List.map_map] at pairs
  rw [recordPairs, rowPairs, name]
  exact congrArg (fun rest => _ :: _ :: _ :: rest) pairs

/-- The JSON of a decoded record. -/
theorem table2Json_conveys (member : board ∈ boards) (name : table.name.text = board.name) (named : posting.name = board.name)
    (metrics : posting.name ≠ ascii "event") (decoded : Decoded board.fields posting.values record)
    (made : table2Json nodeInfo table record maxJsonStrLen clock = .ok jsonStr) :
    Conveys nodeInfo boards posting.line jsonStr := by
  have pairs : recordPairs nodeInfo table record = _ := recordPairs_decoded name decoded
  have text : recordText nodeInfo table record clock = rowText nodeInfo board posting.values clock := by
    rw [recordText, pairs, rowText]
  have object : recordObject nodeInfo table record clock = rowObject nodeInfo board posting.values clock := by
    rw [recordObject, pairs, rowObject]
  have other : ¬ table.name.text = ascii "event" := fun event => metrics (named.trans (name.symm.trans event))
  rw [table2Json, if_neg other, record2Json_small (by decide), text] at made
  split at made
  · rename_i fits
    cases made
    refine ⟨board, member, posting, clock, named, rfl, rfl, fits, fun short => ?_⟩
    rw [List.take_of_length_le (by omega), ← text, ← object, json_recordText, PlainRecord, pairs]
  · cases made

theorem Describes.withRecords (describes : Describes board table) {records : List Record}
    (consistent : (table.withRecords records).Consistent) : Describes board (table.withRecords records) := by
  obtain ⟨metaRecord, loaded, fields⟩ := describes.loaded
  exact ⟨describes.name, metaRecord, { loaded with consistent := consistent }, fields⟩

theorem Described.find (described : Described nodeInfo boards mgr) (name : Bytes) :
    dataBaseMgrFindTable mgr name = boards.findIdx? fun board => board.name = name :=
  (findIdx?_related described.tables fun board table describes => by rw [describes.name]).symm

theorem Described.scraped (described : Described nodeInfo boards mgr) (ctx : ScrapeContext) (maxLen : UInt32) :
    Described nodeInfo boards (scraped mgr ctx maxLen) where
  nodeInfo := described.nodeInfo
  tables := by
    have length : boards.length = (exportTables ctx mgr.tables maxLen.toNat).tables.length :=
      (exportTables_length ctx mgr.tables maxLen.toNat).symm ▸ described.tables.length_eq
    refine List.forall₂_iff_get.mpr ⟨length, fun position within bound => ?_⟩
    have before : position < mgr.tables.length := described.tables.length_eq ▸ within
    obtain ⟨kept, drained, part, -⟩ := @exportTables_at ctx mgr.tables _ maxLen.toNat position (List.getElem?_eq_getElem before)
    have describes := described.tables.get within before
    obtain ⟨metaRecord, loaded, -⟩ := describes.loaded
    have same : (exportTables ctx mgr.tables maxLen.toNat).tables[position] = _ := (List.getElem?_eq_some_iff.mp drained).2
    change Describes boards[position] (exportTables ctx mgr.tables maxLen.toNat).tables[position]
    rw [same]
    exact describes.withRecords (loaded.consistent.drop part.sublist)

theorem Described.setTable (described : Described nodeInfo boards mgr) {place : Nat} (bound : place < boards.length)
    (describes : Describes boards[place] table) : Described nodeInfo boards (mgr.setTable place table) where
  nodeInfo := described.nodeInfo
  tables := by
    have whole := forall₂_set described.tables place describes
    rwa [List.set_getElem_self] at whole

theorem recordCreateWithKey_blank {capacity keySize : Nat} {fresh : Record}
    (created : recordCreateWithKey capacity keySize = some fresh) :
    ∃ keyless, recordCreate capacity = some keyless ∧ SameMetrics keyless fresh := by
  rw [recordCreateWithKey] at created
  split at created
  · cases created
  · obtain ⟨keyless, made, rfl⟩ := Option.map_eq_some_iff.mp created
    exact ⟨keyless, made, rfl, rfl⟩

/-- Without a record the content is parsed into the same metrics. -/
theorem rec2Json_content (loaded : table.Loaded metaRecord) (keyed : table.recordKeySize ≠ 0) (content : Bytes)
    (printable : Printable (metaRecord.metrics.zip (contentValues (content.splitOn bar)))) (jsonStrLen : Nat) :
    rec2Json nodeInfo table none content jsonStrLen clock =
      table2Json nodeInfo table (metaRecord.filled table.recordKeySize (contentValues (content.splitOn bar))) jsonStrLen clock := by
  obtain ⟨fresh, created, filled⟩ := loaded.fills keyed (contentValues (content.splitOn bar))
  obtain ⟨keyless, blank, same⟩ := recordCreateWithKey_blank created
  have parsed : dataBaseMgrParseContent metaRecord fresh content true =
      .ok (metaRecord.filled table.recordKeySize (contentValues (content.splitOn bar))) := by
    rw [dataBaseMgrParseContent, parseTokens_eq, filled, if_pos printable]
  obtain ⟨grown, keylessParsed, sameGrown⟩ := same.parseContent parsed
  simp only [rec2Json, loaded.described, blank, keylessParsed]
  exact table2Json_congr nodeInfo jsonStrLen rfl sameGrown.metrics

theorem convertRecord_json {handle : Option Record} {content : Bytes} {forwarding : Forwarding}
    (found : mgr.tables[position]? = some table)
    (same : rec2Json mgr.nodeInfo table handle content maxJsonStrLen clock =
      table2Json mgr.nodeInfo table record maxJsonStrLen clock)
    (converted : convertRecord mgr position handle content clock = some forwarding) (jsonStr : Bytes)
    (made : forwarding = .json jsonStr) : table2Json mgr.nodeInfo table record maxJsonStrLen clock = .ok jsonStr := by
  rw [← same]
  simp only [convertRecord, found] at converted
  split at converted
  · rename_i text done
    cases converted
    cases made
    exact done
  · cases converted
    cases made
  · cases converted

/-- Nothing is told where nothing is sent. -/
theorem conveys_skipped (jsonStr : Bytes) (made : Forwarding.skipped = .json jsonStr) :
    Conveys nodeInfo boards line jsonStr := by cases made

theorem Described.processes (described : Described nodeInfo boards mgr) (postable : Postable boards line) {kafkaOn : Bool}
    {forwarding : Forwarding} (processed : processData mgr kafkaOn line now clock = some (after, forwarding)) :
    Described nodeInfo boards after ∧ ∀ jsonStr, forwarding = .json jsonStr → Conveys nodeInfo boards line jsonStr := by
  rcases postable with dirty | ⟨posting, rfl, metrics, acceptable⟩
  · simp only [processData, dirty] at processed
    cases processed
    exact ⟨described, conveys_skipped⟩
  rcases Nat.lt_or_ge posting.name.length 32 with short | long
  · have split : getTableNameAndContent
        (bar :: (posting.name ++ bar :: fieldsText posting.values (if posting.terminated then [newline] else []))) _ = _ :=
      getTableNameAndContent_named acceptable.named.1 acceptable.named.2 short
    simp only [processData, Posting.line, probeLine, split, described.find] at processed
    cases place : boards.findIdx? fun board => board.name = posting.name with
    | none =>
        simp only [place] at processed
        cases processed
        exact ⟨described, conveys_skipped⟩
    | some index =>
        obtain ⟨bound, named, -⟩ := List.findIdx?_eq_some_iff_getElem.mp place
        have takes := acceptable.takes boards[index] (List.getElem_mem bound) (of_decide_eq_true named)
        have bounded : index < mgr.tables.length := described.tables.length_eq ▸ bound
        have found := List.getElem?_eq_getElem bounded
        have describes : Describes boards[index] mgr.tables[index] := described.tables.get bound bounded
        have same : posting.name = boards[index].name := (of_decide_eq_true named).symm
        obtain ⟨metaRecord, loaded, fields⟩ := describes.loaded
        obtain ⟨keyed, contents, printable, decoded⟩ := takes.filled loaded fields
        simp only [place, found] at processed
        by_cases on : mgr.webServerOn
        · rw [if_pos ⟨Nat.pos_of_ne_zero keyed, on⟩, dataBaseMgrCreateRec_eq found loaded keyed, contents, insertValues,
            if_pos printable] at processed
          by_cases refused : mgr.tables[index].Refuses
              (metaRecord.filled mgr.tables[index].recordKeySize (lineValues posting.values posting.terminated)).key
          · simp only [if_pos refused] at processed
            cases processed
            exact ⟨described, conveys_skipped⟩
          · simp only [if_neg refused] at processed
            have consistent := loaded.consistent.add
              (metaRecord.filled mgr.tables[index].recordKeySize (lineValues posting.values posting.terminated)) now
            rw [loaded.consistent.add_accepted now refused] at consistent
            have kept := described.setTable bound (describes.withRecords consistent)
            split at processed
            · obtain ⟨forwarded, converted, given⟩ := Option.map_eq_some_iff.mp processed
              cases given
              refine ⟨kept, fun jsonStr made => ?_⟩
              have json := convertRecord_json (DataBaseMgr.setTable_found found) rfl converted jsonStr made
              rw [kept.nodeInfo] at json
              exact table2Json_conveys (List.getElem_mem bound) describes.name same metrics ⟨decoded.metrics, decoded.key⟩ json
            · cases processed
              exact ⟨kept, conveys_skipped⟩
        · rw [if_neg fun both => on both.2] at processed
          split at processed
          · obtain ⟨forwarded, converted, given⟩ := Option.map_eq_some_iff.mp processed
            cases given
            refine ⟨described, fun jsonStr made => ?_⟩
            have json := convertRecord_json found (rec2Json_content loaded keyed _ (contents ▸ printable) _) converted jsonStr made
            rw [described.nodeInfo, contents] at json
            exact table2Json_conveys (List.getElem_mem bound) describes.name same metrics decoded json
          · cases processed
            exact ⟨described, conveys_skipped⟩
  · have split := getTableNameAndContent_long acceptable.named.2 long
      (fieldsText posting.values (if posting.terminated then [newline] else []))
    simp only [processData, Posting.line, probeLine, split] at processed
    cases processed
    exact ⟨described, conveys_skipped⟩

end GalaGopher.Ingress
