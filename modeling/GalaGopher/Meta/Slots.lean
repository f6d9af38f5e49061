import GalaGopher.Meta.Reach
import GalaGopher.Ingress.Decode
import GalaGopher.Ingress.Entities

namespace GalaGopher.Meta

open GalaGopher.Text GalaGopher.Imdb GalaGopher.Ingress

/-! The record that `IMDB_DataBaseMgrParseContent` fills for a table made from
a measurement, and the slots of its key buffer.

The meta record counts fields, its key size counts key fields, and the parser
advances one index for each. -/

variable {table : Table} {metaRecord fresh : Record} {content value : Bytes} {values : List Bytes} {slot keySize : Nat}

/-- The calls of `IMDB_RecordAppendKey` in the loop of the parser, each a token
and the `keyIdx` it is appended at. -/
def keyAppends (fields : List Metric) : List Bytes → (index keyIdx : Nat) → List (Bytes × Nat)
  | [], _, _ => []
  | token :: rest, index, keyIdx =>
      if token = [newline] then []
      else if token = [] ∧ index = 0 then keyAppends fields rest index keyIdx
      else
        match fields[index]? with
        | none => []
        | some field =>
            if field.type.text = metricTypeKey then
              (orNull token, keyIdx) :: keyAppends fields rest (index + 1) (keyIdx + 1)
            else keyAppends fields rest (index + 1) keyIdx

theorem keyValues_drop_cons (fields : List Metric) (index : Nat) (value : Bytes) (values : List Bytes) :
    keyValues ((fields.drop index).zip (value :: values)) =
      match fields[index]? with
      | none => []
      | some field =>
          if field.type.text = metricTypeKey then value :: keyValues ((fields.drop (index + 1)).zip values)
          else keyValues ((fields.drop (index + 1)).zip values) := by
  cases present : fields[index]? with
  | none =>
      rw [List.drop_eq_nil_of_le (List.getElem?_eq_none_iff.mp present), List.zip_nil_left]
      rfl
  | some field =>
      obtain ⟨bound, rfl⟩ := List.getElem?_eq_some_iff.mp present
      rw [List.drop_eq_getElem_cons bound, List.zip_cons_cons, keyValues, List.filter_cons]
      simp only [isKey, decide_eq_true_eq]
      split
      · rfl
      · rfl

theorem keyAppends_started (fields : List Metric) (tokens : List Bytes) (index keyIdx : Nat) :
    keyAppends fields tokens (index + 1) keyIdx =
      (keyValues ((fields.drop (index + 1)).zip ((tokens.takeWhile (· ≠ [newline])).map orNull))).zipIdx keyIdx := by
  induction tokens generalizing index keyIdx with
  | nil => simp [keyAppends, keyValues]
  | cons token rest ih =>
      rw [keyAppends]
      split
      · rename_i last
        simp [last, keyValues]
      · rename_i more
        have kept : (token :: rest).takeWhile (· ≠ [newline]) = token :: rest.takeWhile (· ≠ [newline]) := by
          simp [more]
        rw [if_neg (by omega), kept, List.map_cons, keyValues_drop_cons]
        cases fields[index + 1]? with
        | none => rfl
        | some field =>
            simp only [ih]
            split
            · rw [List.zipIdx_cons]
            · rfl

/-- The key values in their order take the slots in theirs. -/
theorem keyAppends_eq (fields : List Metric) (tokens : List Bytes) (keyIdx : Nat) :
    keyAppends fields tokens 0 keyIdx = (keyValues (fields.zip (contentValues tokens))).zipIdx keyIdx := by
  induction tokens with
  | nil => simp [keyAppends, contentValues, keyValues]
  | cons token rest ih =>
      rw [keyAppends]
      split
      · rename_i last
        simp [last, contentValues, keyValues]
      · rename_i more
        have kept : (token :: rest).takeWhile (· ≠ [newline]) = token :: rest.takeWhile (· ≠ [newline]) := by
          simp [more]
        rw [contentValues, kept]
        cases token with
        | nil => simpa [contentValues] using ih
        | cons byte bytes =>
            rw [if_neg (by simp), List.dropWhile_cons_of_neg (by simp), List.map_cons]
            have first := keyValues_drop_cons fields 0 (orNull (byte :: bytes))
              ((rest.takeWhile (· ≠ [newline])).map orNull)
            rw [List.drop_zero] at first
            rw [first]
            cases fields[0]? with
            | none => rfl
            | some field =>
                simp only [keyAppends_started]
                split
                · rw [List.zipIdx_cons]
                · rfl

theorem keyBuffer_slot (present : values[slot]? = some value) :
    ((keyBuffer keySize values).drop (512 * slot)).take 512 = keySlot value := by
  induction values generalizing slot keySize with
  | nil => simp at present
  | cons first rest ih =>
      rw [keyBuffer_cons]
      cases slot with
      | zero =>
          rw [List.getElem?_cons_zero, Option.some.injEq] at present
          rw [present, Nat.mul_zero, List.drop_zero, List.take_left' (keySlot_length value)]
      | succ slot =>
          rw [List.getElem?_cons_succ] at present
          rw [Nat.mul_succ, Nat.add_comm, ← List.drop_drop, List.drop_left' (keySlot_length first)]
          exact ih present

/-- The metric is made of the field, but for its value. -/
def MadeOf (field metric : Metric) : Prop :=
  ∃ bare, metricCreate field.name.text field.description.text field.type.text = .ok bare ∧
    metric = { bare with val := metric.val }

/-- What the parser leaves of a line: no more metrics than the table has, in
its order, and every key value in a slot of its own inside the buffer. -/
structure RecordOf (metaRecord : Record) (content : Bytes) (record : Record) : Prop where
  few : record.metricsNum ≤ metaRecord.metricsNum
  order : ∀ (place : Nat) (metric : Metric), record.metrics[place]? = some metric →
    ∃ field, metaRecord.metrics[place]? = some field ∧ MadeOf field metric
  inside : ∀ append ∈ keyAppends metaRecord.metrics (content.splitOn bar) 0 0,
    512 * append.2 + 512 ≤ record.keySize
  apart : (keyAppends metaRecord.metrics (content.splitOn bar) 0 0).Pairwise
    fun first second => first.2 ≠ second.2
  kept : ∀ append ∈ keyAppends metaRecord.metrics (content.splitOn bar) 0 0,
    (record.key.drop (512 * append.2)).take 512 = keySlot append.1

theorem madeOf_holding {field : Metric} (printable : field.Formattable) (value : Bytes) :
    MadeOf field (field.holding value) := by
  refine ⟨.printed field.name.text field.description.text field.type.text, ?_, rfl⟩
  rw [metricCreate_eq]
  exact if_pos printable

theorem recordOf_filled (loaded : table.Loaded metaRecord)
    (printable : Imdb.Printable (metaRecord.metrics.zip (contentValues (content.splitOn bar)))) :
    RecordOf metaRecord content
      (metaRecord.filled table.recordKeySize (contentValues (content.splitOn bar))) := by
  have slots := keyValues_zip_length metaRecord.metrics (contentValues (content.splitOn bar))
  have keySize := loaded.keySize
  constructor
  case few =>
    rw [Record.metricsNum, Record.filled_metrics, List.length_map, List.length_zip]
    exact Nat.min_le_left _ _
  case order =>
    intro place metric present
    rw [Record.filled_metrics, List.getElem?_map, Option.map_eq_some_iff] at present
    obtain ⟨pair, paired, rfl⟩ := present
    have member := printable pair (List.mem_of_getElem? paired)
    rw [List.getElem?_zip_eq_some] at paired
    exact ⟨pair.1, paired.1, madeOf_holding member.1 pair.2⟩
  case inside =>
    intro append member
    rw [keyAppends_eq] at member
    have bound := (List.mem_zipIdx member).2.1
    rw [Record.keySize, Record.filled_key, keyBuffer_length (by omega)]
    omega
  case apart =>
    rw [keyAppends_eq]
    apply List.pairwise_map.mp
    rw [List.zipIdx_map_snd]
    exact List.nodup_range'
  case kept =>
    intro append member
    rw [keyAppends_eq] at member
    rw [Record.filled_key]
    exact keyBuffer_slot (List.mem_zipIdx_iff_getElem?.mp member)

theorem contentValues_formattable (free : percent ∉ content) :
    ∀ value ∈ contentValues (content.splitOn bar), Imdb.Formattable value := by
  intro value member
  obtain ⟨token, tokenMember, rfl⟩ := List.mem_map.mp member
  have original : token ∈ content.splitOn bar :=
    (List.takeWhile_prefix _).subset ((List.dropWhile_suffix _).subset tokenMember)
  exact .of_percent_free (mt percent_mem_orNull.mp fun inside => free (mem_of_mem_splitOn original percent inside))

theorem printable_zip {fields : List Metric} (printable : ∀ value ∈ values, Imdb.Formattable value) :
    Imdb.Printable (fields.zip values) ↔ ∀ field ∈ fields.take values.length, field.Formattable := by
  have named : (fields.zip values).map Prod.fst = fields.take values.length := by
    rw [List.zip_eq_zip_take_min, List.map_fst_zip (by rw [List.length_take, List.length_take]; omega),
      Nat.min_comm, ← List.take_take, List.take_length]
  constructor
  · intro given field member
    rw [← named] at member
    obtain ⟨pair, pairMember, rfl⟩ := List.mem_map.mp member
    exact (given pair pairMember).1
  · intro given pair member
    refine ⟨given pair.1 ?_, printable pair.2 (List.of_mem_zip member).2⟩
    rw [← named]
    exact List.mem_map_of_mem member

theorem loaded_metrics {recordsCapability : Nat} {mm : Measurement}
    (loaded : imdbMgrTableLoad (tableCreate mm.name.text recordsCapability) mm = .ok table)
    (described : table.metaRecord = some metaRecord) :
    metaRecord.metrics = mm.fields.map fieldMetric ∧ Printable mm := by
  rw [imdbMgrTableLoad_eq] at loaded
  split at loaded
  · cases loaded
  · split at loaded
    · rename_i printable
      cases loaded
      cases described
      exact ⟨rfl, printable⟩
    · cases loaded

theorem countP_isKey_pos {mm : Measurement} (metrics : metaRecord.metrics = mm.fields.map fieldMetric)
    (printable : Printable mm) (keyed : ∃ field ∈ mm.fields, field.type.text = metricTypeKey) :
    0 < metaRecord.metrics.countP isKey := by
  obtain ⟨field, member, typed⟩ := keyed
  rw [metrics, List.countP_pos_iff]
  refine ⟨fieldMetric field, List.mem_map_of_mem member, ?_⟩
  exact decide_eq_true ((ofText_expanded_key_iff (printable field member).2.2).mpr typed)

/-- A line for a table with a key is parsed exactly when what the table holds
of the fields that get a value prints once more. -/
theorem loaded_table_parses_iff (recordsCapability : Nat) (mm : Measurement) (table : Table)
    (loaded : imdbMgrTableLoad (tableCreate mm.name.text recordsCapability) mm = .ok table)
    (keyed : ∃ field ∈ mm.fields, field.type.text = metricTypeKey) (content : Bytes) (free : percent ∉ content) :
    ∃ metaRecord fresh, table.metaRecord = some metaRecord ∧ metaRecord.metricsNum = mm.fields.length ∧
      recordCreateWithKey metaRecord.metricsCapacity table.recordKeySize = some fresh ∧
      ((∃ record, dataBaseMgrParseContent metaRecord fresh content true = .ok record ∧
          RecordOf metaRecord content record) ↔
        ∀ field ∈ metaRecord.metrics.take (contentValues (content.splitOn bar)).length, field.Formattable) := by
  obtain ⟨metaRecord, tableLoaded⟩ := imdbMgrTableLoad_loaded loaded
  obtain ⟨metrics, printable⟩ := loaded_metrics loaded tableLoaded.described
  have slots := countP_isKey_pos metrics printable keyed
  have nonzero : table.recordKeySize ≠ 0 := by
    rw [tableLoaded.keySize]
    omega
  obtain ⟨fresh, created, -⟩ := tableLoaded.fills nonzero []
  refine ⟨metaRecord, fresh, tableLoaded.described, by rw [Record.metricsNum, metrics, List.length_map], created, ?_⟩
  rw [← printable_zip (contentValues_formattable free)]
  constructor
  · intro parses
    obtain ⟨record, parsed, -⟩ := parses
    rw [dataBaseMgrParseContent, parseTokens_eq, tableLoaded.fills_created created] at parsed
    by_contra unprintable
    rw [if_neg unprintable] at parsed
    cases parsed
  · intro prints
    exact ⟨_, parsed_of_printable tableLoaded created prints, recordOf_filled tableLoaded prints⟩

def sampleField (type name : Bytes) : Field :=
  { description := .ofText 256 [], type := .ofText 64 type, name := .ofText 64 name }

/-- The measurement of a host with a load. -/
def sampleHost (load : Bytes) : Measurement where
  name := .ofText 64 (ascii "host")
  fields :=
    [sampleField (ascii "key") (ascii "ip"), sampleField (ascii "gauge") load, sampleField (ascii "key") (ascii "zone")]
  bounded := Nat.le_add_left 3 125

theorem sampleHost_loaded {load : Bytes} (printable : Printable (sampleHost load)) :
    imdbMgrTableLoad (tableCreate (sampleHost load).name.text 1024) (sampleHost load) =
      .ok (measurementTable 1024 (sampleHost load)) := by
  have bare : ¬ (sampleHost load).fields = [] := List.cons_ne_nil _ _
  rw [imdbMgrTableLoad_eq, if_neg bare, if_pos printable]

theorem sampleHost_parsed :
    ∃ metaRecord fresh record, (measurementTable 1024 (sampleHost (ascii "load"))).metaRecord = some metaRecord ∧
      recordCreateWithKey metaRecord.metricsCapacity 1024 = some fresh ∧
      dataBaseMgrParseContent metaRecord fresh (ascii "|10.0.0.1||b|\n") true = .ok record ∧
      RecordOf metaRecord (ascii "|10.0.0.1||b|\n") record := by
  obtain ⟨metaRecord, fresh, described, -, created, parses⟩ :=
    loaded_table_parses_iff 1024 (sampleHost (ascii "load")) _ (sampleHost_loaded (by decide +kernel)) (by decide)
      (ascii "|10.0.0.1||b|\n") (by decide)
  cases described
  obtain ⟨record, parsed, shaped⟩ := parses.mpr (by decide +kernel)
  exact ⟨_, fresh, record, rfl, created, parsed, shaped⟩

/-- The table holds `load%` for the field `load%%`, and that does not print. -/
theorem percent_field_is_not_parsed :
    ∃ table metaRecord fresh,
      imdbMgrTableLoad (tableCreate (sampleHost (ascii "load%%")).name.text 1024) (sampleHost (ascii "load%%")) = .ok table ∧
      (∃ field ∈ (sampleHost (ascii "load%%")).fields, field.type.text = metricTypeKey) ∧
      percent ∉ ascii "|a|1|b|" ∧ table.metaRecord = some metaRecord ∧
      recordCreateWithKey metaRecord.metricsCapacity table.recordKeySize = some fresh ∧
      dataBaseMgrParseContent metaRecord fresh (ascii "|a|1|b|") true = .error .undefined := by
  have loaded := sampleHost_loaded (show Printable (sampleHost (ascii "load%%")) by decide +kernel)
  obtain ⟨metaRecord, tableLoaded⟩ := imdbMgrTableLoad_loaded loaded
  obtain ⟨fresh, created, filled⟩ := tableLoaded.fills (by decide) (contentValues ((ascii "|a|1|b|").splitOn bar))
  refine ⟨_, metaRecord, fresh, loaded, by decide, by decide, tableLoaded.described, created, ?_⟩
  have described := tableLoaded.described
  cases described
  rw [dataBaseMgrParseContent, parseTokens_eq, filled]
  exact if_neg (by decide +kernel)

end GalaGopher.Meta
