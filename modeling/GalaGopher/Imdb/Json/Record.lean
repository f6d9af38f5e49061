import GalaGopher.Imdb.Insertion
import GalaGopher.Imdb.Json
import GalaGopher.Text.Json

namespace GalaGopher.Imdb

open GalaGopher.Text

variable {nodeInfo : NodeInfo} {table : Table} {record : Record} {room : Nat} {now : Int} {done text : Bytes}
  {pairs : List (Bytes × Bytes)}

def recordPairs (nodeInfo : NodeInfo) (table : Table) (record : Record) : List (Bytes × Bytes) :=
  (ascii "machine_id", nodeInfo.machineId.text) :: (ascii "hostname", nodeInfo.hostName.text) ::
    (ascii "table_name", table.name.text) :: record.metrics.map metricPair

def opening (now : Int) : Bytes := ascii "\x7b\"timestamp\": " ++ decimal (now * 1000)

/-- The text in a buffer that holds all of it. -/
def recordText (nodeInfo : NodeInfo) (table : Table) (record : Record) (now : Int) : Bytes :=
  opening now ++ (recordPairs nodeInfo table record).flatMap jsonPair ++ ascii "\x7d"

def recordObject (nodeInfo : NodeInfo) (table : Table) (record : Record) (now : Int) : Json :=
  .object ((ascii "timestamp", .number (decimal (now * 1000))) ::
    (recordPairs nodeInfo table record).map stringMember)

/-- An answer of 0 comes with a text that decodes to the object, and comes
exactly when the whole text fits with its terminator. -/
structure FaithfulJson (outcome : Outcome Bytes) (whole : Bytes) (object : Json) (jsonStrLen : Nat) : Prop where
  defined : outcome ≠ .error .undefined
  decodes : ∀ text, outcome = .ok text → json text = some object
  fits : (∃ text, outcome = .ok text) ↔ whole.length + 1 ≤ jsonStrLen

-- The buffer.  Up to the room, the text is what was appended, less the byte
-- the terminator takes at the very end.

def cursorAt (room : Nat) (done : Bytes) : JsonCursor where
  text := done.take (room - 1)
  maxLen := room - done.length

theorem written_cursorAt (within : done.length ≤ room) (text : Bytes) :
    (cursorAt room done).text ++ written (cursorAt room done).maxLen text = (done ++ text).take (room - 1) := by
  have positive : ¬ (cursorAt room done).maxLen < 0 := by
    simp only [cursorAt]
    omega
  have count : ((cursorAt room done).maxLen - 1).toNat = room - 1 - done.length := by
    simp only [cursorAt]
    omega
  rw [written, if_neg positive, count, List.take_append]
  rfl

theorem jsonAppend_cursorAt (small : room < 2 ^ 31) (within : done.length ≤ room) (text : Bytes) :
    jsonAppend (cursorAt room done) text =
      if (done ++ text).length ≤ room then .ok (cursorAt room (done ++ text)) else .error .failed := by
  have size : (done ++ text).length = done.length + text.length := List.length_append
  have left : (cursorAt room done).maxLen = room - done.length := rfl
  simp only [jsonAppend, left, size]
  by_cases huge : 2 ^ 31 ≤ text.length
  · rw [if_pos huge, if_neg (by omega)]
  · rw [if_neg huge, if_neg (by omega)]
    by_cases fits : done.length + text.length ≤ room
    · have content := written_cursorAt within text
      have maxLen : (cursorAt room (done ++ text)).maxLen = (room : Int) - done.length - text.length := by
        simp only [cursorAt, size]
        omega
      rw [if_neg (by omega), if_pos fits, ← left, content, left, ← maxLen]
      rfl
    · rw [if_pos (by omega), if_neg fits]

theorem appendPairs_cursorAt (small : room < 2 ^ 31) (within : done.length ≤ room) :
    appendPairs pairs (cursorAt room done) =
      if (done ++ pairs.flatMap jsonPair).length ≤ room then
        .ok (cursorAt room (done ++ pairs.flatMap jsonPair))
      else .error .failed := by
  induction pairs generalizing done with
  | nil =>
      rw [List.flatMap_nil, List.append_nil, if_pos within]
      rfl
  | cons pair rest ih =>
      rw [appendPairs, jsonAppend_cursorAt small within, List.flatMap_cons, ← List.append_assoc]
      by_cases fits : (done ++ jsonPair pair).length ≤ room
      · rw [if_pos fits]
        exact ih fits
      · have more : ¬ (done ++ jsonPair pair ++ rest.flatMap jsonPair).length ≤ room := by
          rw [List.length_append]
          omega
        rw [if_neg fits, if_neg more]
        rfl

theorem record2Json_eq (nodeInfo : NodeInfo) (table : Table) (record : Record) (jsonStrLen : Nat) (now : Int) :
    record2Json nodeInfo table record jsonStrLen now =
      (jsonAppend { text := [], maxLen := toInt32 jsonStrLen } (opening now) >>= fun cursor =>
        appendPairs (recordPairs nodeInfo table record) cursor >>= fun cursor =>
          .ok (cursor.text ++ written cursor.maxLen (ascii "\x7d"))) := by
  simp only [record2Json, recordPairs, appendPairs, bind_assoc]
  rfl

/-- The last byte of the text is not asked for room, and neither is the
terminator. -/
theorem record2Json_small (small : room < 2 ^ 31) :
    record2Json nodeInfo table record room now =
      if (recordText nodeInfo table record now).length ≤ room + 1 then
        .ok ((recordText nodeInfo table record now).take (room - 1))
      else .error .failed := by
  have start : ({ text := [], maxLen := toInt32 room } : JsonCursor) = cursorAt room [] := by
    rw [toInt32, if_pos small, cursorAt, List.take_nil, List.length_nil, Int.natCast_zero, Int.sub_zero]
  have length : (recordText nodeInfo table record now).length =
      (opening now ++ (recordPairs nodeInfo table record).flatMap jsonPair).length + 1 := List.length_append
  rw [record2Json_eq, start, jsonAppend_cursorAt small (Nat.zero_le _), List.nil_append, length]
  by_cases opens : (opening now).length ≤ room
  · rw [if_pos opens]
    show (appendPairs _ _ >>= _) = _
    rw [appendPairs_cursorAt small opens]
    by_cases fits : (opening now ++ (recordPairs nodeInfo table record).flatMap jsonPair).length ≤ room
    · rw [if_pos fits, if_pos (Nat.succ_le_succ fits)]
      exact congrArg Except.ok (written_cursorAt fits _)
    · rw [if_neg fits, if_neg (by omega)]
      rfl
  · have more : ¬ (opening now ++ (recordPairs nodeInfo table record).flatMap jsonPair).length + 1 ≤ room + 1 := by
      rw [List.length_append]
      omega
    rw [if_neg opens, if_neg more]
    rfl

/-- From 2 ^ 31 on the room is a negative `int`, from which the length of the
first text is subtracted. -/
theorem record2Json_large (large : 2 ^ 31 ≤ room) (bound : room < 2 ^ 32) :
    record2Json nodeInfo table record room now =
      if (opening now).length < 2 ^ 31 ∧ room < 2 ^ 31 + (opening now).length then .error .undefined
      else .error .failed := by
  have start : toInt32 room = room - 2 ^ 32 := if_neg (Nat.not_lt.mpr large)
  rw [record2Json_eq, start]
  unfold jsonAppend
  simp only
  by_cases huge : 2 ^ 31 ≤ (opening now).length
  · rw [if_pos huge, if_neg (by omega)]
    rfl
  · rw [if_neg huge]
    by_cases overflows : room < 2 ^ 31 + (opening now).length
    · rw [if_pos (by omega), if_pos (by omega)]
      rfl
    · rw [if_neg (by omega), if_pos (by omega), if_neg (by omega)]
      rfl

theorem jsonPair_eq (pair : Bytes × Bytes) : jsonPair pair = pastedMember pair := by
  have before : ascii ", \"" = [comma, 32, quote] := rfl
  have between : ascii "\": \"" = [quote, colon, 32, quote] := rfl
  have after : ascii "\"" = [quote] := rfl
  rw [jsonPair, pastedMember, before, between, after]
  simp only [List.append_assoc, List.cons_append, List.nil_append]

theorem recordText_eq (nodeInfo : NodeInfo) (table : Table) (record : Record) (now : Int) :
    recordText nodeInfo table record now =
      pastedObject (ascii "timestamp") (now * 1000) (recordPairs nodeInfo table record) := by
  have before : ascii "\x7b\"timestamp\": " =
      openBrace :: quote :: (ascii "timestamp" ++ [quote, colon, 32]) := rfl
  have pairs : (recordPairs nodeInfo table record).flatMap jsonPair =
      (recordPairs nodeInfo table record).flatMap pastedMember :=
    congrArg (List.flatMap · _) (funext jsonPair_eq)
  have close : ascii "\x7d" = [closeBrace] := rfl
  rw [recordText, pastedObject, opening, before, pairs, close, decimal]
  simp only [List.append_assoc, List.cons_append, List.nil_append]

/-- Every name and value of the object means itself between quotes. -/
def PlainRecord (nodeInfo : NodeInfo) (table : Table) (record : Record) : Prop :=
  ∀ pair ∈ recordPairs nodeInfo table record, Pastes pair.1 ∧ Pastes pair.2

instance (nodeInfo : NodeInfo) (table : Table) (record : Record) :
    Decidable (PlainRecord nodeInfo table record) := inferInstanceAs (Decidable (∀ pair ∈ _, _))

theorem json_recordText : json (recordText nodeInfo table record now) =
    some (recordObject nodeInfo table record now) ↔ PlainRecord nodeInfo table record := by
  have named : Pastes (ascii "timestamp") := by decide
  rw [recordText_eq]
  exact (json_pastedObject (now * 1000) (List.cons_ne_nil _ _)).trans (and_iff_right named)

/-- Buffers and records for which the conversion is faithful. -/
def ConvertsFaithfully (nodeInfo : NodeInfo) (table : Table) (record : Record) (room : Nat) (now : Int) : Prop :=
  if room < 2 ^ 31 then
    room + 1 < (recordText nodeInfo table record now).length ∨
      (recordText nodeInfo table record now).length < room ∧ PlainRecord nodeInfo table record
  else
    room ≤ (recordText nodeInfo table record now).length ∧
      ((opening now).length < 2 ^ 31 → 2 ^ 31 + (opening now).length ≤ room)

theorem record2Json_faithful_small (small : room < 2 ^ 31) :
    FaithfulJson (record2Json nodeInfo table record room now) (recordText nodeInfo table record now)
        (recordObject nodeInfo table record now) room ↔
      room + 1 < (recordText nodeInfo table record now).length ∨
        (recordText nodeInfo table record now).length < room ∧ PlainRecord nodeInfo table record := by
  rw [record2Json_small small]
  by_cases answers : (recordText nodeInfo table record now).length ≤ room + 1
  · rw [if_pos answers]
    constructor
    · intro faithful
      have fits := faithful.fits.mp ⟨_, rfl⟩
      have decodes := faithful.decodes _ rfl
      rw [List.take_of_length_le (by omega)] at decodes
      exact .inr ⟨fits, json_recordText.mp decodes⟩
    · intro given
      rcases given with short | plain
      · omega
      · refine ⟨by simp, ?_, iff_of_true ⟨_, rfl⟩ plain.1⟩
        intro text same
        cases same
        rw [List.take_of_length_le (by omega)]
        exact json_recordText.mpr plain.2
  · rw [if_neg answers]
    exact iff_of_true ⟨by simp, by simp, iff_of_false (by simp) (by omega)⟩ (.inl (by omega))

theorem record2Json_faithful_large (large : 2 ^ 31 ≤ room) (bound : room < 2 ^ 32) :
    FaithfulJson (record2Json nodeInfo table record room now) (recordText nodeInfo table record now)
        (recordObject nodeInfo table record now) room ↔
      room ≤ (recordText nodeInfo table record now).length ∧
        ((opening now).length < 2 ^ 31 → 2 ^ 31 + (opening now).length ≤ room) := by
  rw [record2Json_large large bound]
  split
  · rename_i overflows
    refine iff_of_false (fun faithful => faithful.defined rfl) ?_
    intro given
    have enough := given.2 overflows.1
    omega
  · rename_i safe
    constructor
    · intro faithful
      have short : ¬ (recordText nodeInfo table record now).length + 1 ≤ room :=
        fun fits => by simpa using faithful.fits.mpr fits
      exact ⟨by omega, by omega⟩
    · intro given
      exact ⟨by simp, by simp, iff_of_false (by simp) (by omega)⟩

theorem record2Json_faithful_iff (nodeInfo : NodeInfo) (table : Table) (record : Record)
    (jsonStrLen : UInt32) (now : Int) :
    FaithfulJson (record2Json nodeInfo table record jsonStrLen.toNat now)
        (recordText nodeInfo table record now) (recordObject nodeInfo table record now) jsonStrLen.toNat ↔
      ConvertsFaithfully nodeInfo table record jsonStrLen.toNat now := by
  unfold ConvertsFaithfully
  split
  · rename_i small
    exact record2Json_faithful_small small
  · rename_i large
    exact record2Json_faithful_large (Nat.le_of_not_lt large) jsonStrLen.toNat_lt

def sampleQuoted : Record :=
  sampleMetaRecord.filled 512 [ascii "\"", ascii "7", invalidMetricValue]

/-- A quote in a value ends the string it was pasted into. -/
theorem record2Json_quote_unescaped :
    (∃ fresh, recordCreateWithKey sampleMetaRecord.metricsCapacity sampleLoadedTable.recordKeySize = some fresh ∧
      dataBaseMgrParseContent sampleMetaRecord fresh (ascii "|\"|7|") true = .ok sampleQuoted) ∧
      ¬ FaithfulJson (record2Json sampleMgr.nodeInfo sampleLoadedTable sampleQuoted 1024 1)
        (recordText sampleMgr.nodeInfo sampleLoadedTable sampleQuoted 1)
        (recordObject sampleMgr.nodeInfo sampleLoadedTable sampleQuoted 1) 1024 := by
  constructor
  · exact ⟨sampleFresh, sampleFresh_created, sampleFresh_parsed (by decide) (by decide)⟩
  · rw [record2Json_faithful_small (by decide)]
    intro given
    rcases given with short | plain
    · exact absurd short (by decide)
    · exact absurd plain.2 (by decide)

end GalaGopher.Imdb
