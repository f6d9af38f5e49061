import GalaGopher.Imdb.Ingest
import GalaGopher.Imdb.Load

namespace GalaGopher.Imdb

open GalaGopher.Text GalaGopher.Data

/-! Both token loops pair the fields of the meta record with a list of values
and fill the record with the pairs; they differ in the values alone. -/

variable {pairs : List (Metric × Bytes)} {field : Metric} {value : Bytes} {values keys : List Bytes}
  {record metaRecord : Record} {keySize position : Nat} {mgr : DataBaseMgr} {table : Table} {now : Int}

def orNull (token : Bytes) : Bytes :=
  if token = [] then invalidMetricValue else token

/-- The values `IMDB_DataBaseMgrParseContent` finds among the tokens. -/
def contentValues (tokens : List Bytes) : List Bytes :=
  ((tokens.takeWhile (· ≠ [newline])).dropWhile (· = [])).map orNull

/-- The values `IMDB_DataBaseMgrAddRecord` finds after the name of the table. -/
def recordValues (tokens : List Bytes) : List Bytes :=
  (tokens.filter (· ≠ [newline])).map orNull

def fillAll (needKey : Bool) : List (Metric × Bytes) → (keyIdx : Nat) → Record → Outcome Record
  | [], _, record => .ok record
  | (field, value) :: rest, keyIdx, record => do
      let (record, keyIdx) ← fillMetric needKey field keyIdx record value
      fillAll needKey rest keyIdx record

theorem fillAll_nil (needKey : Bool) (keyIdx : Nat) (record : Record) : fillAll needKey [] keyIdx record = .ok record := rfl

theorem fillAll_cons (needKey : Bool) (pair : Metric × Bytes) (rest : List (Metric × Bytes)) (keyIdx : Nat)
    (record : Record) :
    fillAll needKey (pair :: rest) keyIdx record =
      fillMetric needKey pair.1 keyIdx record pair.2 >>= fun filled => fillAll needKey rest filled.2 filled.1 := rfl

/-- A value goes to the field at its place, and is dropped behind the last. -/
theorem fillAll_drop_cons (needKey : Bool) (fields : List Metric) (index keyIdx : Nat) (record : Record) (value : Bytes)
    (values : List Bytes) :
    fillAll needKey ((fields.drop index).zip (value :: values)) keyIdx record =
      match fields[index]? with
      | none => .ok record
      | some field =>
          fillMetric needKey field keyIdx record value >>= fun filled =>
            fillAll needKey ((fields.drop (index + 1)).zip values) filled.2 filled.1 := by
  cases present : fields[index]? with
  | none =>
      rw [List.drop_eq_nil_of_le (List.getElem?_eq_none_iff.mp present), List.zip_nil_left]
      rfl
  | some field =>
      obtain ⟨bound, rfl⟩ := List.getElem?_eq_some_iff.mp present
      rw [List.drop_eq_getElem_cons bound, List.zip_cons_cons]
      rfl

theorem parseTokens_started (needKey : Bool) (fields : List Metric) (tokens : List Bytes)
    (index keyIdx : Nat) (record : Record) :
    parseTokens needKey fields tokens (index + 1) keyIdx record =
      fillAll needKey ((fields.drop (index + 1)).zip ((tokens.takeWhile (· ≠ [newline])).map orNull))
        keyIdx record := by
  induction tokens generalizing index keyIdx record with
  | nil => simp [parseTokens, fillAll_nil]
  | cons token rest ih =>
      simp only [parseTokens]
      split
      · rename_i last
        simp [last, fillAll_nil]
      · rename_i more
        have kept : (token :: rest).takeWhile (· ≠ [newline]) =
            token :: rest.takeWhile (· ≠ [newline]) := by
          simp [more]
        rw [if_neg (by omega), kept, List.map_cons, ← orNull, fillAll_drop_cons]
        cases fields[index + 1]? with
        | none => rfl
        | some field => simp only [ih]

/-- Up to the first value, empty tokens are passed over. -/
theorem parseTokens_eq (needKey : Bool) (fields : List Metric) (tokens : List Bytes) (keyIdx : Nat)
    (record : Record) :
    parseTokens needKey fields tokens 0 keyIdx record =
      fillAll needKey (fields.zip (contentValues tokens)) keyIdx record := by
  induction tokens with
  | nil => simp [parseTokens, contentValues, fillAll_nil]
  | cons token rest ih =>
      simp only [parseTokens, contentValues]
      split
      · rename_i last
        simp [last, fillAll_nil]
      · rename_i more
        have kept : (token :: rest).takeWhile (· ≠ [newline]) =
            token :: rest.takeWhile (· ≠ [newline]) := by
          simp [more]
        rw [kept]
        cases token with
        | nil => simpa [contentValues] using ih
        | cons byte bytes =>
            simp only [reduceCtorEq, false_and, if_false]
            rw [List.dropWhile_cons_of_neg (by simp), List.map_cons]
            cases fields with
            | nil => rfl
            | cons field others =>
                simp only [List.getElem?_cons_zero, List.zip_cons_cons, fillAll_cons]
                simp only [parseTokens_started, List.drop_succ_cons, List.drop_zero]
                rfl

theorem addRecordFields_eq (fields : List Metric) (tokens : List Bytes) (index keyIdx : Nat)
    (record : Record) :
    addRecordFields fields tokens index keyIdx record =
      fillAll true ((fields.drop index).zip (recordValues tokens)) keyIdx record := by
  induction tokens generalizing index keyIdx record with
  | nil => simp [addRecordFields, recordValues, fillAll_nil]
  | cons token rest ih =>
      have unchanged : orNull token = [newline] ↔ token = [newline] := by
        cases token with
        | nil => decide
        | cons byte bytes => rfl
      rw [addRecordFields]
      change ite (orNull token = [newline]) _ _ = _
      split
      · rename_i blank
        rw [ih, recordValues, recordValues, List.filter_cons_of_neg (by simpa using unchanged.mp blank)]
      · rename_i filled
        have kept : recordValues (token :: rest) = orNull token :: recordValues rest := by
          rw [recordValues, List.filter_cons_of_pos (by simpa using mt unchanged.mpr filled)]
          rfl
        rw [kept, fillAll_drop_cons]
        cases fields[index]? with
        | none => rfl
        | some field =>
            simp only [ih]
            rfl

/-- Every text the pairs hand to `snprintf` prints. -/
def Printable (pairs : List (Metric × Bytes)) : Prop :=
  ∀ pair ∈ pairs, pair.1.Formattable ∧ Formattable pair.2

instance (pairs : List (Metric × Bytes)) : Decidable (Printable pairs) :=
  inferInstanceAs (Decidable (∀ pair ∈ pairs, _))

theorem Printable.of_percent_free
    (free : ∀ pair ∈ pairs, (percent ∉ pair.1.name.text ∧ percent ∉ pair.1.description.text ∧
      percent ∉ pair.1.type.text) ∧ percent ∉ pair.2) : Printable pairs := by
  intro pair member
  obtain ⟨⟨name, description, type⟩, value⟩ := free pair member
  exact ⟨⟨.of_percent_free name, .of_percent_free description, .of_percent_free type⟩, .of_percent_free value⟩

def keyValues (pairs : List (Metric × Bytes)) : List Bytes :=
  (pairs.filter fun pair => isKey pair.1).map Prod.snd

/-- A record with a key buffer of the keys so far and room for some pairs more. -/
structure HasRoom (keySize : Nat) (keys : List Bytes) (pairs : List (Metric × Bytes)) (record : Record) :
    Prop where
  small : keySize < 2 ^ 32
  key : record.key = keyBuffer keySize keys
  metrics : record.metrics.length + pairs.length ≤ record.metricsCapacity
  slots : 512 * (keys ++ keyValues pairs).length ≤ keySize

theorem fillMetric_printable {rest : List (Metric × Bytes)}
    (room : HasRoom keySize keys ((field, value) :: rest) record)
    (printableField : field.Formattable) (printableValue : Formattable value) :
    ∃ after, fillMetric true field keys.length record value =
        .ok (after, (keys ++ keyValues [(field, value)]).length) ∧
      HasRoom keySize (keys ++ keyValues [(field, value)]) rest after ∧
      after.updateTime = record.updateTime ∧ after.metricsCapacity = record.metricsCapacity ∧
      after.metrics = record.metrics ++ [field.holding value] := by
  obtain ⟨small, key, metrics, slots⟩ := room
  rw [List.length_cons] at metrics
  have spare : record.metrics.length < record.metricsCapacity := by omega
  obtain ⟨grown, added, sameKey, sameTime, sameCapacity, extended⟩ :=
    recordAddMetric_of_room (field.holding value) spare
  have created : metricCreate field.name.text field.description.text field.type.text =
      .ok (.printed field.name.text field.description.text field.type.text) := by
    rw [metricCreate_eq]
    exact if_pos printableField
  have valued := metricSetValue_eq (.printed field.name.text field.description.text field.type.text) value
  rw [if_pos printableValue] at valued
  have grows : recordAddMetric record { Metric.printed field.name.text field.description.text
      field.type.text with val := .ofText 512 (expanded value) } = .ok grown := added
  have length := congrArg List.length extended
  rw [List.length_append, List.length_singleton] at length
  simp only [fillMetric, created, valued, grows, bind, Except.bind, Bool.true_and, decide_eq_true_eq]
  cases typed : isKey field with
  | true =>
      have one : keyValues [(field, value)] = [value] := by simp [keyValues, typed]
      have more : keyValues ((field, value) :: rest) = value :: keyValues rest := by simp [keyValues, typed]
      rw [more, List.length_append, List.length_cons] at slots
      have appended := recordAppendKey_of_room printableValue small (sameKey.trans key) (by omega)
      rw [if_pos (by simpa [isKey] using typed), appended, one]
      refine ⟨{ grown with key := keyBuffer keySize (keys ++ [value]) }, by rw [List.length_append]; rfl,
        ⟨small, rfl, ?_, ?_⟩, sameTime, sameCapacity, extended⟩
      · simp only
        omega
      · rw [List.append_assoc, List.length_append, List.singleton_append, List.length_cons]
        exact slots
  | false =>
      have none : keyValues [(field, value)] = [] := by simp [keyValues, typed]
      have same : keyValues ((field, value) :: rest) = keyValues rest := by simp [keyValues, typed]
      rw [same] at slots
      rw [if_neg (by simpa [isKey] using typed), none, List.append_nil]
      exact ⟨grown, rfl, ⟨small, sameKey.trans key, by omega, slots⟩, sameTime, sameCapacity, extended⟩

theorem fillMetric_unprintable {needKey : Bool} {keyIdx : Nat}
    (unprintable : ¬ (field.Formattable ∧ Formattable value)) :
    fillMetric needKey field keyIdx record value = .error .undefined := by
  simp only [fillMetric, metricCreate_eq]
  split
  · rename_i printable
    have : ¬ Formattable value := fun holds => unprintable ⟨printable, holds⟩
    simp [metricSetValue_eq, this, bind, Except.bind]
  · rfl

theorem fillAll_printable (room : HasRoom keySize keys pairs record) (printable : Printable pairs) :
    ∃ after, fillAll true pairs keys.length record = .ok after ∧
      after.key = keyBuffer keySize (keys ++ keyValues pairs) ∧
      after.updateTime = record.updateTime ∧ after.metricsCapacity = record.metricsCapacity ∧
      after.metrics = record.metrics ++ pairs.map fun pair => pair.1.holding pair.2 := by
  induction pairs generalizing keys record with
  | nil => exact ⟨record, rfl, by simpa [keyValues] using room.key, rfl, rfl, by simp⟩
  | cons pair rest ih =>
      obtain ⟨printableField, printableValue⟩ := printable pair (by simp)
      obtain ⟨middle, filled, middleRoom, time, capacity, metrics⟩ :=
        fillMetric_printable room printableField printableValue
      obtain ⟨after, restFilled, key, restTime, restCapacity, restMetrics⟩ :=
        ih middleRoom fun other member => printable other (by simp [member])
      have joined : keyValues [pair] ++ keyValues rest = keyValues (pair :: rest) := by
        rw [keyValues, keyValues, keyValues, ← List.map_append, ← List.filter_append]
        rfl
      refine ⟨after, ?_, ?_, restTime.trans time, restCapacity.trans capacity, ?_⟩
      · simp only [fillAll_cons, filled, bind, Except.bind]
        exact restFilled
      · rw [key, List.append_assoc]
        exact congrArg (fun more => keyBuffer keySize (keys ++ more)) joined
      · rw [restMetrics, metrics, List.append_assoc]
        rfl

theorem fillAll_unprintable (room : HasRoom keySize keys pairs record) (unprintable : ¬ Printable pairs) :
    fillAll true pairs keys.length record = .error .undefined := by
  induction pairs generalizing keys record with
  | nil => exact absurd (by simp [Printable]) unprintable
  | cons pair rest ih =>
      by_cases printable : pair.1.Formattable ∧ Formattable pair.2
      · obtain ⟨middle, filled, middleRoom, -⟩ := fillMetric_printable room printable.1 printable.2
        have later : ¬ Printable rest := by
          intro restPrintable
          apply unprintable
          intro other member
          rcases List.mem_cons.mp member with rfl | tail
          · exact printable
          · exact restPrintable other tail
        simp only [fillAll_cons, filled, bind, Except.bind]
        exact ih middleRoom later
      · simp only [fillAll_cons, fillMetric_unprintable printable, bind, Except.bind]

theorem recordAppendKey_kept {after : Record} {keyIdx : Nat}
    (appended : recordAppendKey record keyIdx value = .ok after) :
    after.metricsCapacity = record.metricsCapacity ∧ after.metrics = record.metrics := by
  unfold recordAppendKey at appended
  simp only at appended
  split at appended
  · cases appended
  · split at appended
    · cases appended
    · split at appended
      · cases appended
      · cases appended
        exact ⟨rfl, rfl⟩

theorem fillMetric_metrics {needKey : Bool} {keyIdx nextIdx : Nat} {after : Record}
    (filled : fillMetric needKey field keyIdx record value = .ok (after, nextIdx)) :
    after.metrics = record.metrics ++ [field.holding value] := by
  simp only [fillMetric, Outcome.bind_ok_iff] at filled
  obtain ⟨made, created, metric, valued, stored, added, keyed⟩ := filled
  rw [metricCreate_eq] at created
  rw [metricSetValue_eq] at valued
  split at created
  · cases created
    split at valued
    · cases valued
      obtain ⟨-, metrics⟩ := recordAddMetric_ok added
      split at keyed
      · rw [Outcome.bind_ok_iff] at keyed
        obtain ⟨last, appended, same⟩ := keyed
        cases same
        rw [(recordAppendKey_kept appended).2, metrics]
        rfl
      · cases keyed
        rw [metrics]
        rfl
    · cases valued
  · cases created

theorem fillAll_metrics {needKey : Bool} {keyIdx : Nat} {after : Record}
    (filled : fillAll needKey pairs keyIdx record = .ok after) :
    after.metrics = record.metrics ++ pairs.map fun pair => pair.1.holding pair.2 := by
  induction pairs generalizing record keyIdx with
  | nil =>
      cases filled
      simp
  | cons pair rest ih =>
      obtain ⟨field, value⟩ := pair
      rw [fillAll_cons, Outcome.bind_ok_iff] at filled
      obtain ⟨⟨middle, nextIdx⟩, first, more⟩ := filled
      rw [ih more, fillMetric_metrics first, List.append_assoc]
      rfl

end GalaGopher.Imdb
