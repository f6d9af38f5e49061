import GalaGopher.Ingress.Line

namespace GalaGopher.Ingress

open GalaGopher.Text GalaGopher.Data GalaGopher.Imdb

/-! Whether two entities ever share a record.

A key buffer is a row of slots of 512 bytes, one for each key value as the
parser reads it.  The slots tell their values apart; the reading does not
always keep apart what stands between the bars. -/

variable {metaRecord fresh firstRecord secondRecord : Record} {table : Table} {first second content : Bytes}

theorem expandFormat_subset {format text : Bytes} (expands : expandFormat format = some text) :
    ∀ byte ∈ text, byte ∈ format := by
  replace expands := expands_of_expandFormat expands
  induction expands with
  | nil => exact fun _ member => member
  | doubled later ih =>
      intro byte member
      rcases List.mem_cons.mp member with same | present
      · exact List.mem_cons.mpr (.inl same)
      · exact List.mem_cons_of_mem _ (List.mem_cons_of_mem _ (ih byte present))
  | plain different later ih =>
      intro byte member
      rcases List.mem_cons.mp member with same | present
      · exact List.mem_cons.mpr (.inl same)
      · exact List.mem_cons_of_mem _ (ih byte present)

/-- A value that leaves something in its slot and no zero byte there. -/
structure Marked (value : Bytes) : Prop where
  nonempty : storedValue value ≠ []
  nonzero : (0 : UInt8) ∉ storedValue value

theorem marked_of_printable {value : Bytes} (printable : Formattable value) (nonempty : value ≠ [])
    (nonzero : (0 : UInt8) ∉ value) : Marked value := by
  obtain ⟨text, expands⟩ := Option.isSome_iff_exists.mp printable
  have same : expanded value = text := by simp [expanded, expands]
  constructor
  · have printed : text ≠ [] := by
      intro empty
      subst empty
      cases value with
      | nil => exact nonempty rfl
      | cons byte rest =>
          unfold expandFormat at expands
          split at expands
          · split at expands
            · split at expands
              · simp at expands
              · cases expands
            · cases expands
          · simp at expands
    rw [storedValue, same, ne_eq, List.take_eq_nil_iff]
    simp [printed]
  · intro member
    rw [storedValue, same] at member
    exact nonzero (expandFormat_subset expands 0 (List.mem_of_mem_take member))

theorem takeWhile_padded {text : Bytes} (nonzero : (0 : UInt8) ∉ text) (count : Nat) :
    (text ++ List.replicate count 0).takeWhile (· ≠ 0) = text := by
  have all : ∀ byte ∈ text, decide (byte ≠ 0) = true := by
    intro byte member
    apply decide_eq_true
    intro zero
    exact nonzero (zero ▸ member)
  rw [List.takeWhile_append_of_pos all]
  cases count with
  | zero => simp
  | succ count => simp [List.replicate_succ]

theorem keySlot_takeWhile {value : Bytes} (marked : Marked value) :
    (keySlot value).takeWhile (· ≠ 0) = storedValue value :=
  takeWhile_padded marked.nonzero _

theorem keySlot_marked {value : Bytes} (marked : Marked value) :
    ∃ byte rest, keySlot value = byte :: rest ∧ byte ≠ 0 := by
  cases stored : storedValue value with
  | nil => exact absurd stored marked.nonempty
  | cons byte rest =>
      refine ⟨byte, rest ++ List.replicate (512 - (storedValue value).length) 0, ?_, ?_⟩
      · rw [keySlot, ← storedValue, stored, List.cons_append]
      · intro zero
        apply marked.nonzero
        rw [stored, zero]
        exact List.mem_cons_self

theorem keyBuffer_cons (keySize : Nat) (value : Bytes) (values : List Bytes) :
    keyBuffer keySize (value :: values) = keySlot value ++ keyBuffer (keySize - 512) values := by
  have padding : keySize - 512 * (values.length + 1) = keySize - 512 - 512 * values.length := by omega
  rw [keyBuffer, keyBuffer, List.flatMap_cons, List.append_assoc, List.length_cons, padding]

theorem keyBuffer_nil_ne {keySize : Nat} {value : Bytes} (marked : Marked value) (values : List Bytes) :
    keyBuffer keySize [] ≠ keyBuffer keySize (value :: values) := by
  intro same
  obtain ⟨byte, rest, slot, nonzero⟩ := keySlot_marked marked
  rw [keyBuffer_cons, slot] at same
  have member : byte ∈ keyBuffer keySize [] := by
    rw [same]
    exact List.mem_cons_self
  exact nonzero (List.eq_of_mem_replicate member)

/-- Slots tell apart what is stored in them. -/
theorem keyBuffer_eq_iff {keySize : Nat} {firstKeys secondKeys : List Bytes}
    (firstMarked : ∀ value ∈ firstKeys, Marked value) (secondMarked : ∀ value ∈ secondKeys, Marked value) :
    keyBuffer keySize firstKeys = keyBuffer keySize secondKeys ↔
      firstKeys.map storedValue = secondKeys.map storedValue := by
  induction firstKeys generalizing secondKeys keySize with
  | nil =>
      cases secondKeys with
      | nil => simp
      | cons value values =>
          exact iff_of_false (keyBuffer_nil_ne (secondMarked value (by simp)) values) (by simp)
  | cons value values ih =>
      cases secondKeys with
      | nil =>
          exact iff_of_false (fun same => keyBuffer_nil_ne (firstMarked value (by simp)) values same.symm) (by simp)
      | cons other others =>
          have rest := @ih (keySize - 512) others (fun value member => firstMarked value (by simp [member]))
            (fun value member => secondMarked value (by simp [member]))
          rw [keyBuffer_cons, keyBuffer_cons, List.map_cons, List.map_cons, List.cons.injEq, ← rest]
          constructor
          · intro same
            obtain ⟨slots, buffers⟩ := List.append_inj same (by rw [keySlot_length, keySlot_length])
            refine ⟨?_, buffers⟩
            rw [← keySlot_takeWhile (firstMarked value (by simp)), slots,
              keySlot_takeWhile (secondMarked other (by simp))]
          · intro given
            obtain ⟨stored, buffers⟩ := given
            rw [keySlot_congr stored, buffers]

/-- The values that stand between the bars in the places of key fields. -/
def keyTexts (fields : List Metric) (content : Bytes) : List Bytes :=
  keyValues (fields.zip (content.splitOn bar).tail)

/-- The values the parser reads for the key fields. -/
def readKeys (fields : List Metric) (content : Bytes) : List Bytes :=
  keyValues (fields.zip (contentValues (content.splitOn bar)))

/-- A line of a probe from its second bar on, with all its key values. -/
structure Keyed (fields : List Metric) (content : Bytes) : Prop where
  leading : content.head? = some bar
  nonzero : (0 : UInt8) ∉ content
  complete : (keyTexts fields content).length = fields.countP isKey
  short : ∀ text ∈ keyTexts fields content, text.length ≤ 511

theorem mem_of_mem_splitOn {token : Bytes} (member : token ∈ content.splitOn bar) :
    ∀ byte ∈ token, byte ∈ content := by
  induction content generalizing token with
  | nil =>
      rw [List.splitOn_nil, List.mem_singleton] at member
      subst token
      simp
  | cons first rest ih =>
      intro byte inside
      rw [List.splitOn_cons_eq_if_modifyHead] at member
      split at member
      · rcases List.mem_cons.mp member with empty | later
        · subst token
          cases inside
        · exact List.mem_cons_of_mem _ (ih later byte inside)
      · cases tokens : rest.splitOn bar with
        | nil => exact absurd tokens (List.splitOn_ne_nil bar rest)
        | cons head others =>
            rw [tokens, List.modifyHead_cons] at member
            rw [tokens] at ih
            rcases List.mem_cons.mp member with grown | later
            · subst token
              rcases List.mem_cons.mp inside with same | inside
              · exact List.mem_cons.mpr (.inl same)
              · exact List.mem_cons_of_mem _ (ih List.mem_cons_self byte inside)
            · exact List.mem_cons_of_mem _ (ih (List.mem_cons_of_mem _ later) byte inside)

theorem readKeys_marked (nonzero : (0 : UInt8) ∉ content)
    (printable : Printable (metaRecord.metrics.zip (contentValues (content.splitOn bar)))) :
    ∀ value ∈ readKeys metaRecord.metrics content, Marked value := by
  intro value member
  obtain ⟨pair, kept, rfl⟩ := List.mem_map.mp member
  have inside := (List.mem_filter.mp kept).1
  obtain ⟨token, split, read⟩ := List.mem_map.mp (List.of_mem_zip inside).2
  have present := (List.takeWhile_sublist _).subset ((List.dropWhile_sublist _).subset split)
  apply marked_of_printable (printable pair inside).2
  · rw [← read, orNull]
    split
    · decide
    · assumption
  · rw [← read, orNull]
    split
    · decide
    · exact fun zero => nonzero (mem_of_mem_splitOn present 0 zero)

theorem readKeys_printable
    (printable : Printable (metaRecord.metrics.zip (contentValues (content.splitOn bar)))) :
    ∀ value ∈ readKeys metaRecord.metrics content, Formattable value := by
  intro value member
  obtain ⟨pair, kept, rfl⟩ := List.mem_map.mp member
  exact (printable pair (List.mem_filter.mp kept).1).2

theorem parsed_filled (loaded : table.Loaded metaRecord) {record : Record}
    (created : recordCreateWithKey metaRecord.metricsCapacity table.recordKeySize = some fresh)
    (parsed : dataBaseMgrParseContent metaRecord fresh content true = .ok record) :
    Printable (metaRecord.metrics.zip (contentValues (content.splitOn bar))) ∧
      record = metaRecord.filled table.recordKeySize (contentValues (content.splitOn bar)) := by
  rw [dataBaseMgrParseContent, parseTokens_eq, loaded.fills_created created] at parsed
  split at parsed
  · rename_i printable
    cases parsed
    exact ⟨printable, rfl⟩
  · cases parsed

/-- The key buffers of two parsed contents are equal exactly when the values
read for their key fields are stored alike. -/
theorem parsed_key_eq_iff (loaded : table.Loaded metaRecord)
    (created : recordCreateWithKey metaRecord.metricsCapacity table.recordKeySize = some fresh)
    (firstParsed : dataBaseMgrParseContent metaRecord fresh first true = .ok firstRecord)
    (secondParsed : dataBaseMgrParseContent metaRecord fresh second true = .ok secondRecord)
    (firstNonzero : (0 : UInt8) ∉ first) (secondNonzero : (0 : UInt8) ∉ second) :
    firstRecord.key = secondRecord.key ↔
      (readKeys metaRecord.metrics first).map storedValue = (readKeys metaRecord.metrics second).map storedValue := by
  obtain ⟨firstPrintable, firstFilled⟩ := parsed_filled loaded created firstParsed
  obtain ⟨secondPrintable, secondFilled⟩ := parsed_filled loaded created secondParsed
  rw [firstFilled, secondFilled, Record.filled_key, Record.filled_key]
  exact keyBuffer_eq_iff (readKeys_marked firstNonzero firstPrintable)
    (readKeys_marked secondNonzero secondPrintable)

/-- Records of different keys, added one after the other to a table with room
for both, are both there afterwards. -/
def BothStay (table : Table) (first second : Record) : Prop :=
  ∀ firstNow secondNow : Int, table.records.length + 2 ≤ table.recordsCapability →
    let afterFirst := tableAddRecord table first firstNow
    let afterSecond := tableAddRecord afterFirst.2 second secondNow
    afterFirst.1 = 0 ∧ afterSecond.1 = 0 ∧
      recordUpdateTime first firstNow ∈ afterSecond.2.records ∧
      recordUpdateTime second secondNow ∈ afterSecond.2.records

theorem tableAddRecord_roomy (consistent : table.Consistent) (record : Record) (now : Int)
    (room : table.records.length < table.recordsCapability) :
    tableAddRecord table record now =
      (0, table.withRecords (KeyedList.put Record.key (recordUpdateTime record now) table.records)) := by
  apply consistent.add_accepted now
  intro refused
  exact absurd refused.2 (Nat.not_le_of_lt room)

theorem put_length_le (record : Record) (records : List Record) :
    (KeyedList.put Record.key record records).length ≤ records.length + 1 := by
  rw [KeyedList.put, List.length_append, List.length_singleton]
  exact Nat.succ_le_succ (KeyedList.remove_sublist Record.key record.key records).length_le

theorem bothStay_of_ne (consistent : table.Consistent) (different : firstRecord.key ≠ secondRecord.key) :
    BothStay table firstRecord secondRecord := by
  intro firstNow secondNow room
  have firstAdded := tableAddRecord_roomy consistent firstRecord firstNow (by omega)
  have kept := consistent.add firstRecord firstNow
  rw [firstAdded] at kept
  have distinct : KeyedList.Distinct Record.key
      (KeyedList.put Record.key (recordUpdateTime firstRecord firstNow) table.records) := kept.distinct
  have grown := put_length_le (recordUpdateTime firstRecord firstNow) table.records
  have secondAdded := tableAddRecord_roomy kept secondRecord secondNow (by
    rw [Table.withRecords_records, Table.withRecords_recordsCapability]
    omega)
  simp only [firstAdded, secondAdded, Table.withRecords_records, true_and]
  constructor
  · have present : recordUpdateTime firstRecord firstNow ∈
        KeyedList.put Record.key (recordUpdateTime firstRecord firstNow) table.records :=
      List.mem_append_right _ (List.mem_singleton_self _)
    apply List.mem_append_left
    rw [KeyedList.remove_eq_filter distinct, List.mem_filter]
    exact ⟨present, decide_eq_true different⟩
  · exact List.mem_append_right _ (List.mem_singleton_self _)

/-- The one format that prints a text. -/
def doubled (text : Bytes) : Bytes :=
  text.flatMap fun byte => if byte = percent then [percent, percent] else [byte]

theorem eq_doubled {format text : Bytes} (expands : expandFormat format = some text) : format = doubled text := by
  replace expands := expands_of_expandFormat expands
  induction expands with
  | nil => rfl
  | doubled later ih =>
      rw [ih]
      rfl
  | plain different later ih =>
      rw [doubled, List.flatMap_cons, if_neg different, ← doubled, ← ih]
      rfl

/-- Values short enough for their slot are told apart by what they store. -/
theorem storedValue_inj {left right : Bytes} (leftPrintable : Formattable left) (rightPrintable : Formattable right)
    (leftShort : left.length ≤ 511) (rightShort : right.length ≤ 511)
    (same : storedValue left = storedValue right) : left = right := by
  obtain ⟨leftText, leftExpands⟩ := Option.isSome_iff_exists.mp leftPrintable
  obtain ⟨rightText, rightExpands⟩ := Option.isSome_iff_exists.mp rightPrintable
  have leftLength := (expandFormat_length leftExpands).1
  have rightLength := (expandFormat_length rightExpands).1
  have leftSame : expanded left = leftText := by simp [expanded, leftExpands]
  have rightSame : expanded right = rightText := by simp [expanded, rightExpands]
  rw [storedValue, storedValue, leftSame, rightSame, List.take_of_length_le (by omega),
    List.take_of_length_le (by omega)] at same
  rw [eq_doubled leftExpands, eq_doubled rightExpands, same]

theorem map_storedValue_inj {left right : List Bytes}
    (leftFits : ∀ value ∈ left, Formattable value ∧ value.length ≤ 511)
    (rightFits : ∀ value ∈ right, Formattable value ∧ value.length ≤ 511)
    (same : left.map storedValue = right.map storedValue) : left = right := by
  induction left generalizing right with
  | nil =>
      rw [List.map_nil, eq_comm, List.map_eq_nil_iff] at same
      exact same.symm
  | cons value values ih =>
      cases right with
      | nil => cases same
      | cons other others =>
          rw [List.map_cons, List.map_cons, List.cons.injEq] at same
          obtain ⟨valuePrintable, valueShort⟩ := leftFits value (by simp)
          obtain ⟨otherPrintable, otherShort⟩ := rightFits other (by simp)
          rw [storedValue_inj valuePrintable otherPrintable valueShort otherShort same.1,
            ih (fun value member => leftFits value (by simp [member]))
              (fun value member => rightFits value (by simp [member])) same.2]

/-- The first value is there, no value is a lone newline and no key value is
empty. -/
structure Plain (fields : List Metric) (content : Bytes) : Prop where
  first : (content.splitOn bar).tail.head? ≠ some []
  unbroken : ∀ value ∈ (content.splitOn bar).tail.take fields.length, value ≠ [newline]
  nonempty : ∀ text ∈ keyTexts fields content, text ≠ []

theorem zip_takeWhile {fields : List Metric} {values : List Bytes}
    (unbroken : ∀ value ∈ values.take fields.length, value ≠ [newline]) :
    fields.zip (values.takeWhile (· ≠ [newline])) = fields.zip values := by
  induction fields generalizing values with
  | nil => rfl
  | cons field rest ih =>
      cases values with
      | nil => rfl
      | cons value others =>
          rw [List.length_cons, List.take_succ_cons] at unbroken
          have first : decide (value ≠ [newline]) = true := decide_eq_true (unbroken value (by simp))
          have kept : (value :: others).takeWhile (· ≠ [newline]) = value :: others.takeWhile (· ≠ [newline]) :=
            List.takeWhile_cons_of_pos first
          rw [kept, List.zip_cons_cons, List.zip_cons_cons,
            ih fun other member => unbroken other (by simp [member])]

theorem keyValues_map_orNull {fields : List Metric} {values : List Bytes}
    (nonempty : ∀ text ∈ keyValues (fields.zip values), text ≠ []) :
    keyValues (fields.zip (values.map orNull)) = keyValues (fields.zip values) := by
  have kept : keyValues (fields.zip (values.map orNull)) = (keyValues (fields.zip values)).map orNull := by
    rw [keyValues, keyValues, List.zip_map_right, List.filter_map, List.map_map, List.map_map]
    rfl
  have unchanged : ∀ text ∈ keyValues (fields.zip values), orNull text = id text := by
    intro text member
    rw [orNull, if_neg (nonempty text member), id]
  rw [kept, List.map_congr_left unchanged, List.map_id]

/-- A plain content is read as it is written. -/
theorem Plain.readKeys {fields : List Metric} (plain : Plain fields content) (keyed : Keyed fields content)
    (some : fields ≠ []) : readKeys fields content = keyTexts fields content := by
  obtain ⟨rest, rfl⟩ : ∃ rest, content = bar :: rest := by
    have leading := keyed.leading
    cases content with
    | nil => cases leading
    | cons byte rest =>
        cases leading
        exact ⟨rest, rfl⟩
  obtain ⟨first, unbroken, nonempty⟩ := plain
  rw [keyTexts] at nonempty ⊢
  rw [Ingress.readKeys, contentValues]
  rw [splitOn_bar_cons, List.tail_cons] at *
  have opening : ([] :: rest.splitOn bar).takeWhile (· ≠ [newline]) =
      [] :: (rest.splitOn bar).takeWhile (· ≠ [newline]) :=
    List.takeWhile_cons_of_pos (by decide)
  have skipped : ([] :: (rest.splitOn bar).takeWhile (· ≠ [newline])).dropWhile (· = []) =
      (rest.splitOn bar).takeWhile (· ≠ [newline]) := by
    rw [List.dropWhile_cons_of_pos (by simp)]
    cases values : rest.splitOn bar with
    | nil => rfl
    | cons value others =>
        rw [values] at first unbroken
        have filled : value ≠ [] := by simpa using first
        have present : value ∈ (value :: others).take fields.length := by
          cases fields with
          | nil => exact absurd rfl some
          | cons field more => simp
        have kept : (value :: others).takeWhile (· ≠ [newline]) = value :: others.takeWhile (· ≠ [newline]) :=
          List.takeWhile_cons_of_pos (decide_eq_true (unbroken value present))
        rw [kept, List.dropWhile_cons_of_neg (by simpa using filled)]
  rw [opening, skipped]
  have short : ∀ text ∈ keyValues (fields.zip ((rest.splitOn bar).takeWhile (· ≠ [newline]))), text ≠ [] := by
    rw [zip_takeWhile unbroken]
    exact nonempty
  rw [keyValues_map_orNull short, zip_takeWhile unbroken]

/-- Plain contents of different key values never share a record. -/
theorem plain_apart (loaded : table.Loaded metaRecord)
    (created : recordCreateWithKey metaRecord.metricsCapacity table.recordKeySize = some fresh)
    (firstParsed : dataBaseMgrParseContent metaRecord fresh first true = .ok firstRecord)
    (secondParsed : dataBaseMgrParseContent metaRecord fresh second true = .ok secondRecord)
    (firstKeyed : Keyed metaRecord.metrics first) (secondKeyed : Keyed metaRecord.metrics second)
    (firstPlain : Plain metaRecord.metrics first) (secondPlain : Plain metaRecord.metrics second)
    (different : keyTexts metaRecord.metrics first ≠ keyTexts metaRecord.metrics second) :
    firstRecord.key ≠ secondRecord.key := by
  have fields : metaRecord.metrics ≠ [] := by
    intro none
    have positive := loaded.positive
    rw [← loaded.full, none] at positive
    cases positive
  have firstRead := firstPlain.readKeys firstKeyed fields
  have secondRead := secondPlain.readKeys secondKeyed fields
  intro same
  rw [parsed_key_eq_iff loaded created firstParsed secondParsed firstKeyed.nonzero secondKeyed.nonzero] at same
  have firstPrints := readKeys_printable (parsed_filled loaded created firstParsed).1
  have secondPrints := readKeys_printable (parsed_filled loaded created secondParsed).1
  rw [firstRead] at same firstPrints
  rw [secondRead] at same secondPrints
  exact different (map_storedValue_inj (fun value member => ⟨firstPrints value member, firstKeyed.short value member⟩)
    (fun value member => ⟨secondPrints value member, secondKeyed.short value member⟩) same)

/-- Two contents of different key values get different keys, and neither
record takes the place of the other. -/
def EntitiesApart (table : Table) (fields : List Metric) (first second : Bytes)
    (firstRecord secondRecord : Record) : Prop :=
  keyTexts fields first ≠ keyTexts fields second →
    firstRecord.key ≠ secondRecord.key ∧ BothStay table firstRecord secondRecord

theorem entitiesApart_iff (loaded : table.Loaded metaRecord)
    (created : recordCreateWithKey metaRecord.metricsCapacity table.recordKeySize = some fresh)
    (firstParsed : dataBaseMgrParseContent metaRecord fresh first true = .ok firstRecord)
    (secondParsed : dataBaseMgrParseContent metaRecord fresh second true = .ok secondRecord)
    (firstKeyed : Keyed metaRecord.metrics first) (secondKeyed : Keyed metaRecord.metrics second) :
    EntitiesApart table metaRecord.metrics first second firstRecord secondRecord ↔
      (keyTexts metaRecord.metrics first = keyTexts metaRecord.metrics second ∨
        (readKeys metaRecord.metrics first).map storedValue ≠
          (readKeys metaRecord.metrics second).map storedValue) := by
  have keys := parsed_key_eq_iff loaded created firstParsed secondParsed firstKeyed.nonzero secondKeyed.nonzero
  constructor
  · intro apart
    by_cases same : keyTexts metaRecord.metrics first = keyTexts metaRecord.metrics second
    · exact .inl same
    · exact .inr (mt keys.mpr (apart same).1)
  · intro given different
    rcases given with same | stored
    · exact absurd same different
    · have apart := mt keys.mp stored
      exact ⟨apart, bothStay_of_ne loaded.consistent apart⟩

/-- With its address missing an entity is filed under its counter. -/
theorem entities_share_a_record :
    dataBaseMgrParseContent sampleMetaRecord sampleFresh (bar :: bar :: ascii "7|") true =
        .ok (sampleMetaRecord.filled 512 [ascii "7", invalidMetricValue]) ∧
      dataBaseMgrParseContent sampleMetaRecord sampleFresh (bar :: ascii "7|5|") true =
        .ok (sampleMetaRecord.filled 512 [ascii "7", ascii "5", invalidMetricValue]) ∧
      ¬ EntitiesApart sampleLoadedTable sampleMetaRecord.metrics (bar :: bar :: ascii "7|") (bar :: ascii "7|5|")
        (sampleMetaRecord.filled 512 [ascii "7", invalidMetricValue])
        (sampleMetaRecord.filled 512 [ascii "7", ascii "5", invalidMetricValue]) := by
  refine ⟨?_, ?_, ?_⟩
  · exact sampleFresh_parsed (by decide) (by decide)
  · exact sampleFresh_parsed (by decide) (by decide)
  · intro apart
    have filed : keyValues (sampleMetaRecord.metrics.zip [ascii "7", invalidMetricValue]) =
        keyValues (sampleMetaRecord.metrics.zip [ascii "7", ascii "5", invalidMetricValue]) := by decide
    exact (apart (by decide)).1 (congrArg (keyBuffer 512) filed)

theorem entitiesApart_two :
    EntitiesApart sampleLoadedTable sampleMetaRecord.metrics (bar :: ascii "8|5|") (bar :: ascii "7|5|")
        (sampleMetaRecord.filled 512 [ascii "8", ascii "5", invalidMetricValue])
        (sampleMetaRecord.filled 512 [ascii "7", ascii "5", invalidMetricValue]) := by
  have firstParsed : dataBaseMgrParseContent sampleMetaRecord sampleFresh (bar :: ascii "8|5|") true =
      .ok (sampleMetaRecord.filled 512 [ascii "8", ascii "5", invalidMetricValue]) :=
    sampleFresh_parsed (by decide) (by decide)
  have secondParsed : dataBaseMgrParseContent sampleMetaRecord sampleFresh (bar :: ascii "7|5|") true =
      .ok (sampleMetaRecord.filled 512 [ascii "7", ascii "5", invalidMetricValue]) :=
    sampleFresh_parsed (by decide) (by decide)
  exact (entitiesApart_iff sampleLoadedTable_loaded sampleFresh_created firstParsed secondParsed
    ⟨rfl, by decide, by decide, by decide⟩ ⟨rfl, by decide, by decide, by decide⟩).mpr (.inr (by decide))

end GalaGopher.Ingress
