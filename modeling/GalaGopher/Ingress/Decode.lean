import GalaGopher.Ingress.Line

namespace GalaGopher.Ingress

open GalaGopher.Text GalaGopher.Data GalaGopher.Imdb

variable {name tail : Bytes} {values tokens : List Bytes} {terminated : Bool} {fields : List Metric}
  {mgr : DataBaseMgr} {table : Table} {metaRecord record : Record} {position : Nat} {now : Int}

/-- The values the content parser keeps of a line. -/
def lineValues (values : List Bytes) (terminated : Bool) : List Bytes :=
  ((values ++ if terminated then [] else [[]]).dropWhile (· = [])).map orNull

theorem contentValues_line (clean : ∀ value ∈ values, bar ∉ value ∧ newline ∉ value) :
    contentValues ((bar :: fieldsText values (if terminated then [newline] else [])).splitOn bar) =
      lineValues values terminated := by
  have tailFree : bar ∉ (if terminated then [newline] else [] : Bytes) := by
    cases terminated with
    | true => decide
    | false => decide
  have more : ∀ token ∈ ([] :: values), decide (token ≠ [newline]) = true := by
    intro token member
    rcases List.mem_cons.mp member with rfl | written
    · decide
    · apply decide_eq_true
      intro same
      subst same
      exact (clean _ written).2 (by simp)
  have tokens : ([] :: (values ++ [if terminated then [newline] else []])).takeWhile (· ≠ [newline]) =
      [] :: (values ++ if terminated then [] else [[]]) := by
    rw [← List.cons_append, List.takeWhile_append_of_pos more]
    cases terminated with
    | true => simp
    | false => rfl
  rw [splitOn_bar_cons, splitOn_fieldsText (fun value member => (clean value member).1) tailFree,
    contentValues, tokens, List.dropWhile_cons_of_pos (by simp)]
  rfl

/-- The first value is written down, or its loss does not show: then every
value reads as a null, the second in so many letters, and no newline ends the
tokens early. -/
def FirstValueKept (values : List Bytes) (terminated : Bool) : Prop :=
  values.head? ≠ some [] ∨
    (terminated = false ∧ values[1]? = some invalidMetricValue ∧
      ∀ value ∈ values, orNull value = invalidMetricValue)

theorem lineValues_of_head (head : values.head? ≠ some []) (nonempty : values ≠ []) :
    lineValues values terminated =
      values.map orNull ++ if terminated then [] else [invalidMetricValue] := by
  cases values with
  | nil => exact absurd rfl nonempty
  | cons first others =>
      have written : first ≠ [] := by simpa using head
      rw [lineValues, List.cons_append, List.dropWhile_cons_of_neg (by simpa using written),
        ← List.cons_append, List.map_append]
      cases terminated with
      | true => rfl
      | false => rfl

theorem lineValues_of_lost {others : List Bytes}
    (enough : ([] :: others).length ≤ (lineValues ([] :: others) terminated).length) :
    terminated = false ∧ others.head? ≠ some [] ∧ others ≠ [] ∧
      lineValues ([] :: others) terminated = others.map orNull ++ [invalidMetricValue] := by
  have shorter := List.dropWhile_sublist (p := fun token => decide (token = []))
    (l := others ++ if terminated then [] else [[]])
  rw [lineValues, List.cons_append, List.dropWhile_cons_of_pos (by simp), List.length_map,
    List.length_cons] at enough
  have limit := shorter.length_le
  cases terminated with
  | true =>
      simp only [if_true, List.append_nil] at enough limit
      omega
  | false =>
      have whole := shorter.eq_of_length (by
        simp only [Bool.false_eq_true, if_false, List.length_append, List.length_singleton] at enough limit ⊢
        omega)
      have written : others.head? ≠ some [] ∧ others ≠ [] := by
        cases others with
        | nil => simp at enough
        | cons first rest =>
            refine ⟨?_, by simp⟩
            intro empty
            simp only [List.head?_cons, Option.some.injEq] at empty
            subst first
            have := congrArg List.length whole
            have cut := List.length_dropWhile_le (fun token => decide (token = []))
              (rest ++ if false then [] else [([] : Bytes)])
            rw [List.cons_append, List.dropWhile_cons_of_pos (by simp)] at this
            simp only [List.length_cons] at this
            omega
      refine ⟨rfl, written.1, written.2, ?_⟩
      rw [lineValues, List.cons_append, List.dropWhile_cons_of_pos (by simp), whole]
      simp [orNull]

theorem lineValues_kept (kept : FirstValueKept values terminated) (nonempty : values ≠ []) :
    (lineValues values terminated).take values.length = values.map orNull := by
  by_cases head : values.head? = some []
  · rcases kept with written | ⟨unterminated, second, nulls⟩
    · exact absurd head written
    · subst terminated
      obtain ⟨others, rfl⟩ : ∃ others, values = [] :: others := by
        cases values with
        | nil => contradiction
        | cons first others => exact ⟨others, by simpa using head⟩
      obtain ⟨rest, rfl⟩ : ∃ rest, others = invalidMetricValue :: rest := by
        cases others with
        | nil => contradiction
        | cons next rest => exact ⟨rest, by simpa using second⟩
      have line : lineValues ([] :: invalidMetricValue :: rest) false =
          (invalidMetricValue :: rest ++ [[]]).map orNull := by
        rw [lineValues, List.cons_append, List.dropWhile_cons_of_pos (by simp), if_neg (by simp),
          List.cons_append, List.dropWhile_cons_of_neg (by decide)]
      have all : ∀ value ∈ (invalidMetricValue :: rest ++ [[]]), orNull value = invalidMetricValue := by
        intro value member
        rcases List.mem_append.mp member with earlier | last
        · exact nulls value (List.mem_cons_of_mem _ earlier)
        · rw [List.mem_singleton.mp last]
          rfl
      rw [line, List.map_congr_left all, List.map_congr_left nulls, List.map_const', List.map_const',
        List.take_replicate]
      congr 1
      simp
  · rw [lineValues_of_head head nonempty, List.take_left' (by simp)]

/-- Where every value stored is the one before it, and the first is a null,
all are nulls. -/
theorem nulls_of_shifted {previous : Bytes} {others : List Bytes}
    (null : orNull previous = invalidMetricValue)
    (printable : ∀ value ∈ others, Formattable (orNull value))
    (shifted : (others.map orNull ++ [invalidMetricValue]).map storedValue = (previous :: others).map orNull) :
    ∀ value ∈ others, orNull value = invalidMetricValue := by
  induction others generalizing previous with
  | nil => simp
  | cons next rest ih =>
      simp only [List.map_cons, List.cons_append, List.cons.injEq] at shifted
      obtain ⟨head, tail⟩ := shifted
      rw [null] at head
      have nextNull := eq_of_take_expanded (printable next (by simp)) head (by decide) (by decide)
      have restNull := ih nextNull (fun value member => printable value (by simp [member])) (by
        simpa using tail)
      intro value member
      rcases List.mem_cons.mp member with rfl | later
      · exact nextNull
      · exact restNull value later

theorem orNull_length {value : Bytes} (short : value.length ≤ 511) : (orNull value).length ≤ 511 := by
  unfold orNull
  split
  · decide
  · exact short

theorem percent_mem_orNull {value : Bytes} : percent ∈ orNull value ↔ percent ∈ value := by
  unfold orNull
  split
  · rename_i empty
    rw [empty]
    decide
  · rfl

/-- The values stored are those written exactly when the first is kept and no
value is a format of its own. -/
theorem storedValues_iff (nonempty : values ≠ []) (short : ∀ value ∈ values, value.length ≤ 511) :
    ((∀ value ∈ (lineValues values terminated).take values.length, Formattable value) ∧
      ((lineValues values terminated).take values.length).map storedValue = values.map orNull) ↔
    FirstValueKept values terminated ∧ ∀ value ∈ values, percent ∉ value := by
  constructor
  · intro given
    obtain ⟨printable, same⟩ := given
    have length := congrArg List.length same
    simp only [List.length_map, List.length_take] at length
    have kept : FirstValueKept values terminated := by
      by_cases head : values.head? = some []
      · obtain ⟨others, rfl⟩ : ∃ others, values = [] :: others := by
          cases values with
          | nil => contradiction
          | cons first others => exact ⟨others, by simpa using head⟩
        have enough : ([] :: others).length ≤ (lineValues ([] :: others) terminated).length := by omega
        obtain ⟨unterminated, written, more, line⟩ := lineValues_of_lost enough
        have exactly : (lineValues ([] :: others) terminated).take ([] :: others).length =
            others.map orNull ++ [invalidMetricValue] := by
          rw [line]
          exact List.take_of_length_le (by simp)
        rw [exactly] at printable same
        have printableOthers : ∀ value ∈ others, Formattable (orNull value) :=
          fun value member => printable _ (List.mem_append_left _ (List.mem_map_of_mem member))
        have nulls := nulls_of_shifted rfl printableOthers same
        refine .inr ⟨unterminated, ?_, ?_⟩
        · cases others with
          | nil => exact absurd rfl more
          | cons next rest =>
              have nonnull := nulls next (by simp)
              have filled : next ≠ [] := by simpa using written
              rw [orNull, if_neg filled] at nonnull
              simp [nonnull]
        · intro value member
          rcases List.mem_cons.mp member with rfl | later
          · rfl
          · exact nulls value later
      · exact .inl head
    refine ⟨kept, ?_⟩
    rw [lineValues_kept kept nonempty] at printable same
    intro value member
    have unchanged := List.map_inj_left.mp ((List.map_map).symm.trans same) value member
    rw [← percent_mem_orNull]
    exact (take_expanded_eq_self_iff (printable _ (List.mem_map_of_mem member))
      (orNull_length (short value member))).mp unchanged
  · intro given
    obtain ⟨kept, free⟩ := given
    rw [lineValues_kept kept nonempty]
    have printable : ∀ value ∈ values.map orNull, Formattable value := by
      intro value member
      obtain ⟨token, tokenMember, rfl⟩ := List.mem_map.mp member
      exact Formattable.of_percent_free (mt percent_mem_orNull.mp (free token tokenMember))
    refine ⟨printable, ?_⟩
    rw [List.map_map]
    apply List.map_congr_left
    intro value member
    exact (take_expanded_eq_self_iff (printable _ (List.mem_map_of_mem member))
      (orNull_length (short value member))).mpr (mt percent_mem_orNull.mp (free value member))

/-- One slot of the key buffer a probe's values make. -/
def paddedSlot (value : Bytes) : Bytes := value ++ List.replicate (512 - value.length) 0

/-- The key buffer of a line: the key-typed values in field order. -/
def probeKey (fields : List Metric) (values : List Bytes) : Bytes :=
  ((fields.zip values).filter fun pair => isKey pair.1).flatMap fun pair => paddedSlot (orNull pair.2)

/-- The record of a line: a metric for each field, with its name, its type and
the value written for it, and the key of the values. -/
structure Decoded (fields : List Metric) (values : List Bytes) (record : Record) : Prop where
  metrics : record.metrics.map (fun metric => (metric.name.text, metric.type.text, metric.val.text)) =
    (fields.zip values).map fun pair => (pair.1.name.text, pair.1.type.text, orNull pair.2)
  key : record.key = probeKey fields values

/-- Splitting a line and storing its content gives the record of the line. -/
def Decodes (mgr : DataBaseMgr) (position : Nat) (fields : List Metric) (name : Bytes)
    (values : List Bytes) (terminated : Bool) (now : Int) : Prop :=
  ∃ content record after,
    getTableNameAndContent (probeLine name values terminated) 32 = some (name, content) ∧
    dataBaseMgrCreateRec mgr position content now = some (some record, after) ∧
    Decoded fields values record

/-- The texts of a field survive being used as formats. -/
def Metric.Plain (field : Metric) : Prop :=
  percent ∉ field.name.text ∧ percent ∉ field.type.text ∧ Formattable field.description.text

/-- Under a full row of values, the metrics are those of the line exactly when
names and types are printed as they are and the values stored are those
written. -/
theorem filled_metrics_iff {kept : List Bytes} (count : values.length = fields.length)
    (full : kept.length = fields.length) :
    ((fields.zip kept).map fun pair => pair.1.holding pair.2).map
        (fun metric => (metric.name.text, metric.type.text, metric.val.text)) =
      (fields.zip values).map (fun pair => (pair.1.name.text, pair.1.type.text, orNull pair.2)) ↔
    (∀ field ∈ fields, (expanded field.name.text).take 31 = field.name.text ∧
      (expanded field.type.text).take 31 = field.type.text) ∧
    kept.map storedValue = values.map orNull := by
  induction fields generalizing values kept with
  | nil =>
      rw [List.eq_nil_of_length_eq_zero count, List.eq_nil_of_length_eq_zero full]
      simp
  | cons field rest ih =>
      cases values with
      | nil => contradiction
      | cons value others =>
          cases kept with
          | nil => contradiction
          | cons token tokens =>
              have tail := ih (Nat.succ.inj count) (Nat.succ.inj full)
              simp only [List.zip_cons_cons, List.map_cons, List.cons.injEq, Prod.mk.injEq,
                List.forall_mem_cons]
              rw [tail]
              constructor
              · intro given
                obtain ⟨⟨name, type, val⟩, plain, rest⟩ := given
                exact ⟨⟨⟨name, type⟩, plain⟩, val, rest⟩
              · intro given
                obtain ⟨⟨⟨name, type⟩, plain⟩, val, rest⟩ := given
                exact ⟨⟨name, type, val⟩, plain, rest⟩

theorem keySlot_eq_paddedSlot {value : Bytes} (same : storedValue value = value) :
    keySlot value = paddedSlot value := by
  rw [keySlot, paddedSlot, ← storedValue, same]

/-- With a slot for every key field, the buffer the parser fills is the key of
the line. -/
theorem keyBuffer_eq_probeKey {keySize : Nat} (count : values.length = fields.length)
    (slots : keySize = 512 * fields.countP isKey)
    (same : ∀ value ∈ values, storedValue (orNull value) = orNull value) :
    keyBuffer keySize (keyValues (fields.zip (values.map orNull))) = probeKey fields values := by
  have keys : keyValues (fields.zip (values.map orNull)) =
      ((fields.zip values).filter fun pair => isKey pair.1).map fun pair => orNull pair.2 := by
    rw [keyValues, List.zip_map_right, List.filter_map, List.map_map]
    rfl
  have exactly : (keyValues (fields.zip (values.map orNull))).length = fields.countP isKey := by
    have names : (fields.zip values).map Prod.fst = fields := List.map_fst_zip (by omega)
    rw [keys, List.length_map, ← List.countP_eq_length_filter]
    conv_rhs => rw [← names, List.countP_map]
    rfl
  rw [keyBuffer, exactly, slots, Nat.sub_self, List.replicate_zero, List.append_nil, keys, probeKey,
    List.flatMap_map]
  apply List.flatMap_congr
  intro pair member
  exact keySlot_eq_paddedSlot (same pair.2 (List.of_mem_zip (List.mem_filter.mp member).1).2)

theorem plain_iff {field : Metric} :
    Metric.Plain field ↔ field.Formattable ∧ (expanded field.name.text).take 31 = field.name.text ∧
      (expanded field.type.text).take 31 = field.type.text := by
  have nameFits := field.name.fits
  have typeFits := field.type.fits
  constructor
  · intro given
    obtain ⟨name, type, description⟩ := given
    have printableName := Formattable.of_percent_free name
    have printableType := Formattable.of_percent_free type
    exact ⟨⟨printableName, description, printableType⟩,
      (take_expanded_eq_self_iff printableName (by omega)).mpr name,
      (take_expanded_eq_self_iff printableType (by omega)).mpr type⟩
  · intro given
    obtain ⟨⟨printableName, description, printableType⟩, name, type⟩ := given
    exact ⟨(take_expanded_eq_self_iff printableName (by omega)).mp name,
      (take_expanded_eq_self_iff printableType (by omega)).mp type, description⟩

theorem printable_zip_iff {kept : List Bytes} (full : kept.length = fields.length) :
    Printable (fields.zip kept) ↔ (∀ field ∈ fields, field.Formattable) ∧ ∀ value ∈ kept, Formattable value := by
  have names : (fields.zip kept).map Prod.fst = fields := List.map_fst_zip (by omega)
  have texts : (fields.zip kept).map Prod.snd = kept := List.map_snd_zip (by omega)
  constructor
  · intro printable
    constructor
    · intro field member
      rw [← names] at member
      obtain ⟨pair, pairMember, rfl⟩ := List.mem_map.mp member
      exact (printable pair pairMember).1
    · intro value member
      rw [← texts] at member
      obtain ⟨pair, pairMember, rfl⟩ := List.mem_map.mp member
      exact (printable pair pairMember).2
  · intro given pair member
    obtain ⟨fieldsPrintable, valuesPrintable⟩ := given
    have parts := List.of_mem_zip member
    exact ⟨fieldsPrintable pair.1 parts.1, valuesPrintable pair.2 parts.2⟩

/-- What a line must be for its record to come out as written. -/
structure Decodable (table : Table) (fields : List Metric) (name : Bytes) (values : List Bytes)
    (terminated : Bool) : Prop where
  named : name ≠ [] ∧ bar ∉ name
  first : FirstValueKept values terminated
  free : ∀ value ∈ values, percent ∉ value
  plain : ∀ field ∈ fields, Metric.Plain field
  accepted : ¬ table.Refuses (probeKey fields values)

/-- A line whose values and fields come through unchanged prints, and fills in
its own record. -/
theorem filled_decoded (loaded : table.Loaded metaRecord) (count : values.length = metaRecord.metrics.length)
    (nonempty : values ≠ []) (short : ∀ value ∈ values, value.length ≤ 511) (first : FirstValueKept values terminated)
    (free : ∀ value ∈ values, percent ∉ value) (plain : ∀ field ∈ metaRecord.metrics, Metric.Plain field) :
    Printable (metaRecord.metrics.zip (lineValues values terminated)) ∧
      Decoded metaRecord.metrics values (metaRecord.filled table.recordKeySize (lineValues values terminated)) := by
  have whole := zip_take_left metaRecord.metrics (lineValues values terminated)
  have kept := lineValues_kept first nonempty
  rw [← count, kept] at whole
  obtain ⟨valuesPrintable, same⟩ := (storedValues_iff nonempty short).mpr ⟨first, free⟩
  rw [kept] at valuesPrintable same
  have full : (values.map orNull).length = metaRecord.metrics.length := by rw [List.length_map, count]
  refine ⟨?_, ?_, ?_⟩
  · rw [← whole]
    exact (printable_zip_iff full).mpr ⟨fun field member => (plain_iff.mp (plain field member)).1, valuesPrintable⟩
  · rw [Record.filled_metrics, ← whole]
    exact (filled_metrics_iff count full).mpr ⟨fun field member => (plain_iff.mp (plain field member)).2, same⟩
  · have each := same
    rw [List.map_map, List.map_inj_left] at each
    rw [Record.filled_key, ← whole]
    exact keyBuffer_eq_probeKey count loaded.keySize each

/-- Storing the values of a line makes its record exactly when the values and
fields come through unchanged and the table takes the key. -/
theorem insertValues_decoded_iff (mgr : DataBaseMgr) (position : Nat) (loaded : table.Loaded metaRecord)
    (count : values.length = metaRecord.metrics.length) (nonempty : values ≠ [])
    (short : ∀ value ∈ values, value.length ≤ 511) (terminated : Bool) (now : Int) :
    (∃ record after,
      insertValues mgr position table metaRecord (lineValues values terminated) now = some (some record, after) ∧
        Decoded metaRecord.metrics values record) ↔
      FirstValueKept values terminated ∧ (∀ value ∈ values, percent ∉ value) ∧
        (∀ field ∈ metaRecord.metrics, Metric.Plain field) ∧
        ¬ table.Refuses (probeKey metaRecord.metrics values) := by
  have whole := zip_take_left metaRecord.metrics (lineValues values terminated)
  rw [← count] at whole
  constructor
  · intro given
    obtain ⟨record, after, returned, decoded⟩ := given
    rw [insertValues] at returned
    split at returned
    · rename_i printable
      by_cases refused : table.Refuses (metaRecord.filled table.recordKeySize (lineValues values terminated)).key
      · simp [refused] at returned
      · simp only [refused, if_false, Option.some.injEq, Prod.mk.injEq] at returned
        obtain ⟨rfl, -⟩ := returned
        obtain ⟨metrics, key⟩ := decoded
        have sizes := congrArg List.length metrics
        simp only [recordUpdateTime_metrics, Record.filled_metrics, List.length_map, List.length_zip] at sizes
        have full : ((lineValues values terminated).take values.length).length = metaRecord.metrics.length := by
          rw [List.length_take]
          omega
        rw [← whole] at printable
        simp only [recordUpdateTime_metrics, Record.filled_metrics, ← whole] at metrics
        obtain ⟨fieldsPrintable, valuesPrintable⟩ := (printable_zip_iff full).mp printable
        obtain ⟨texts, stored⟩ := (filled_metrics_iff count full).mp metrics
        obtain ⟨first, free⟩ := (storedValues_iff nonempty short).mp ⟨valuesPrintable, stored⟩
        refine ⟨first, free, fun field member => ?_, ?_⟩
        · exact plain_iff.mpr ⟨fieldsPrintable field member, texts field member⟩
        · rw [← key]
          exact refused
    · contradiction
  · intro given
    obtain ⟨first, free, plain, accepted⟩ := given
    obtain ⟨printable, decoded⟩ := filled_decoded loaded count nonempty short first free plain
    let made := recordUpdateTime (metaRecord.filled table.recordKeySize (lineValues values terminated)) now
    refine ⟨made, mgr.setTable position (table.withRecords (KeyedList.put Record.key made table.records)), ?_,
      ⟨decoded.metrics, decoded.key⟩⟩
    rw [insertValues, if_pos printable]
    simp only [decoded.key, accepted, if_false, made]

/-- Splitting and storing a line gives the record its probe wrote exactly when
the line is decodable. -/
theorem probeLine_decodes_iff (loaded : table.Loaded metaRecord)
    (found : dataBaseMgrFindTable mgr name = some position) (stored : mgr.tables[position]? = some table)
    (keyed : ∃ field ∈ metaRecord.metrics, isKey field = true)
    (count : values.length = metaRecord.metrics.length)
    (clean : ∀ value ∈ values, value.length ≤ 511 ∧ bar ∉ value ∧ newline ∉ value)
    (terminated : Bool) (now : Int) :
    Decodes mgr position metaRecord.metrics name values terminated now ↔
      Decodable table metaRecord.metrics name values terminated := by
  have nonempty : values ≠ [] := by
    intro same
    subst same
    obtain ⟨field, member, -⟩ := keyed
    simp [List.eq_nil_of_length_eq_zero count.symm] at member
  have short : name.length < 32 := by
    obtain ⟨other, otherStored, named⟩ := dataBaseMgrFindTable_some found
    rw [← named]
    exact Nat.lt_succ_of_le other.name.fits
  have keySize : table.recordKeySize ≠ 0 := by
    have positive := List.countP_pos_iff.mpr keyed
    have slots := loaded.keySize
    omega
  have created : dataBaseMgrCreateRec mgr position
      (bar :: fieldsText values (if terminated then [newline] else [])) now =
        insertValues mgr position table metaRecord (lineValues values terminated) now := by
    rw [dataBaseMgrCreateRec_eq stored loaded keySize,
      contentValues_line fun value member => (clean value member).2]
  have lengths : ∀ value ∈ values, value.length ≤ 511 := fun value member => (clean value member).1
  have decoded := insertValues_decoded_iff mgr position loaded count nonempty lengths terminated now
  constructor
  · intro given
    obtain ⟨content, record, after, split, returned, made⟩ := given
    have named := getTableNameAndContent_some split
    have parts := (getTableNameAndContent_named named.1 named.2 short).symm.trans split
    simp only [Option.some.injEq, Prod.mk.injEq, true_and] at parts
    rw [← parts, created] at returned
    obtain ⟨first, free, plain, accepted⟩ := decoded.mp ⟨record, after, returned, made⟩
    exact { named, first, free, plain, accepted }
  · intro decodable
    obtain ⟨record, after, returned, made⟩ :=
      decoded.mpr ⟨decodable.first, decodable.free, decodable.plain, decodable.accepted⟩
    exact ⟨_, record, after, getTableNameAndContent_named decodable.named.1 decodable.named.2 short,
      created.trans returned, made⟩

/-- An empty first value moves the second into its field, and a doubled
percent sign is stored as one. -/
theorem probeLine_misread :
    ¬ Decodes sampleMgr 0 sampleMetaRecord.metrics (ascii "link") [[], ascii "7"] false 0 ∧
      ¬ Decodes sampleMgr 0 sampleMetaRecord.metrics (ascii "link") [ascii "eth0", ascii "5%%"] false 0 := by
  have vals : ∀ values content kept,
      getTableNameAndContent (probeLine (ascii "link") values false) 32 = some (ascii "link", content) →
      (dataBaseMgrCreateRec sampleMgr 0 content 0).map
        (fun result => result.1.map fun record => record.metrics.map fun metric => metric.val.text) =
          some (some kept) →
      Decodes sampleMgr 0 sampleMetaRecord.metrics (ascii "link") values false 0 →
      kept = (sampleMetaRecord.metrics.zip values).map fun pair => orNull pair.2 := by
    intro values content kept split made given
    obtain ⟨other, record, after, otherSplit, returned, decoded⟩ := given
    rw [split, Option.some.injEq, Prod.mk.injEq] at otherSplit
    rw [otherSplit.2, returned, Option.map_some, Option.map_some, Option.some.injEq, Option.some.injEq] at made
    have texts := congrArg (List.map fun signature => signature.2.2) decoded.metrics
    rw [List.map_map, List.map_map] at texts
    exact made.symm.trans texts
  constructor
  · intro decodes
    have wrong := vals _ (ascii "||7|") [ascii "7", ascii "(null)"] (by decide) (by decide +kernel) decodes
    revert wrong
    decide
  · intro decodes
    have wrong := vals _ (ascii "|eth0|5%%|") [ascii "eth0", ascii "5%"] (by decide) (by decide +kernel) decodes
    revert wrong
    decide

theorem probeLine_decodes_plain :
    Decodes sampleMgr 0 sampleMetaRecord.metrics (ascii "link") [ascii "eth0", ascii "7"] true 5 ↔
      Decodable sampleLoadedTable sampleMetaRecord.metrics (ascii "link") [ascii "eth0", ascii "7"] true :=
  probeLine_decodes_iff sampleLoadedTable_loaded (by decide) rfl (by decide) (by decide) (by decide) true 5

end GalaGopher.Ingress
