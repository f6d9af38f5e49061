import GalaGopher.Text.Bytes

namespace GalaGopher.Imdb

open GalaGopher.Text

/-! Metrics and records of the in-memory database.

Allocation is taken to succeed; a creation function answers NULL only where the
source tests its arguments. -/

def metricTypeLabel : Bytes := ascii "label"
def metricTypeKey : Bytes := ascii "key"
def invalidMetricValue : Bytes := ascii "(null)"

structure Metric where
  description : CharArray 1024
  type : CharArray 32
  name : CharArray 32
  val : CharArray 512
deriving DecidableEq, Repr

/-- A record owns a key buffer, whose length is `keySize`, and an array of
`metricsCapacity` metric pointers of which the first `metricsNum` are set. -/
structure Record where
  key : Bytes
  updateTime : Int
  metricsCapacity : Nat
  metrics : List Metric
  within : metrics.length ≤ metricsCapacity
deriving DecidableEq, Repr

def Record.metricsNum (record : Record) : Nat := record.metrics.length
def Record.keySize (record : Record) : Nat := record.key.length

/-- Every text is handed to `snprintf` as the format. -/
def metricCreate (name description type : Bytes) : Outcome Metric := do
  let name ← snprintf 32 name
  let description ← snprintf 1024 description
  let type ← snprintf 32 type
  return { description, type, name, val := .ofText 512 [] }

def metricSetValue (metric : Metric) (val : Bytes) : Outcome Metric := do
  let val ← snprintf 512 val
  return { metric with val }

def recordCreate (capacity : Nat) : Option Record :=
  if capacity = 0 then none
  else some { key := [], updateTime := 0, metricsCapacity := capacity, metrics := [], within := Nat.zero_le _ }

def recordCreateWithKey (capacity keySize : Nat) : Option Record :=
  if keySize = 0 then none
  else (recordCreate capacity).map fun record => { record with key := List.replicate keySize 0 }

def recordAddMetric (record : Record) (metric : Metric) : Outcome Record :=
  if full : record.metricsNum = record.metricsCapacity then .error .failed
  else .ok { record with
    metrics := record.metrics ++ [metric]
    within := by
      have := record.within
      simp only [Record.metricsNum] at full
      simp only [List.length_append, List.length_singleton]
      omega }

/-- Overwrite the bytes of a buffer from an offset on. -/
def overwrite (buffer : Bytes) (offset : Nat) (written : Bytes) : Bytes :=
  buffer.take offset ++ written ++ buffer.drop (offset + written.length)

/-- The bounds test is made in 32 bits, so a sum that wraps lets the write
leave the buffer. -/
def recordAppendKey (record : Record) (keyIdx : Nat) (val : Bytes) : Outcome Record :=
  let offset := keyIdx * 512 % 2 ^ 32
  if (offset + 512) % 2 ^ 32 > record.keySize then .error .failed
  else if offset + 512 > record.keySize then .error .undefined
  else
    match expandFormat val with
    | none => .error .undefined
    | some text => .ok { record with key := overwrite record.key offset (text.take 511 ++ [0]) }

def recordUpdateTime (record : Record) (seconds : Int) : Record :=
  { record with updateTime := seconds }

@[simp] theorem recordUpdateTime_key (record : Record) (seconds : Int) :
    (recordUpdateTime record seconds).key = record.key := rfl

@[simp] theorem recordUpdateTime_updateTime (record : Record) (seconds : Int) :
    (recordUpdateTime record seconds).updateTime = seconds := rfl

@[simp] theorem recordUpdateTime_metrics (record : Record) (seconds : Int) :
    (recordUpdateTime record seconds).metrics = record.metrics := rfl

@[ext] theorem Record.ext {left right : Record} (key : left.key = right.key)
    (updateTime : left.updateTime = right.updateTime)
    (metricsCapacity : left.metricsCapacity = right.metricsCapacity)
    (metrics : left.metrics = right.metrics) : left = right := by
  cases left
  cases right
  simp_all

/-- Texts `snprintf` can print without an argument. -/
def Formattable (format : Bytes) : Prop := (expandFormat format).isSome

instance (format : Bytes) : Decidable (Formattable format) := inferInstanceAs (Decidable (_ = true))

/-- What a formattable text prints. -/
def expanded (format : Bytes) : Bytes := (expandFormat format).getD []

theorem Formattable.of_percent_free {format : Bytes} (free : percent ∉ format) :
    Formattable format := by
  simp [Formattable, expandFormat_of_percent_free free]

/-- A text that prints and fits is printed as it is exactly when it holds no
percent sign. -/
theorem take_expanded_eq_self_iff {format : Bytes} {size : Nat} (printable : Formattable format)
    (short : format.length ≤ size) : (expanded format).take size = format ↔ percent ∉ format := by
  obtain ⟨text, printed⟩ := Option.isSome_iff_exists.mp printable
  have same : expanded format = text := by simp [expanded, printed]
  have shorter := (expandFormat_length printed).1
  rw [same, List.take_of_length_le (by omega)]
  constructor
  · intro unchanged
    rw [unchanged] at printed
    exact expandFormat_eq_self_iff.mp printed
  · intro free
    rw [expandFormat_of_percent_free free, Option.some.injEq] at printed
    exact printed.symm

theorem eq_of_take_expanded {format text : Bytes} {size : Nat} (printable : Formattable format)
    (printed : (expanded format).take size = text) (short : text.length < size) (free : percent ∉ text) :
    format = text := by
  have length := congrArg List.length printed
  rw [List.length_take] at length
  rw [List.take_of_length_le (by omega)] at printed
  obtain ⟨output, expands⟩ := Option.isSome_iff_exists.mp printable
  have same : expanded format = output := by simp [expanded, expands]
  rw [same] at printed
  subst output
  have formatFree := mt (expandFormat_percent expands) free
  rw [expandFormat_of_percent_free formatFree, Option.some.injEq] at expands
  exact expands

theorem snprintf_eq {size : Nat} (format : Bytes) :
    snprintf size format =
      if Formattable format then .ok (.ofText size (expanded format))
      else .error .undefined := by
  cases printed : expandFormat format <;> simp [snprintf, Formattable, expanded, printed]

/-- The texts of a field that creating one of its metrics prints. -/
def Metric.Formattable (field : Metric) : Prop :=
  Imdb.Formattable field.name.text ∧ Imdb.Formattable field.description.text ∧
    Imdb.Formattable field.type.text

instance (field : Metric) : Decidable field.Formattable :=
  inferInstanceAs (Decidable (_ ∧ _ ∧ _))

/-- The metric made of a field and a value, both formattable. -/
def Metric.holding (field : Metric) (value : Bytes) : Metric where
  description := .ofText 1024 (expanded field.description.text)
  type := .ofText 32 (expanded field.type.text)
  name := .ofText 32 (expanded field.name.text)
  val := .ofText 512 (expanded value)

/-- The metric made of three texts that print, before it gets a value. -/
def Metric.printed (name description type : Bytes) : Metric where
  description := .ofText 1024 (expanded description)
  type := .ofText 32 (expanded type)
  name := .ofText 32 (expanded name)
  val := .ofText 512 []

theorem metricCreate_eq (name description type : Bytes) :
    metricCreate name description type =
      if Formattable name ∧ Formattable description ∧ Formattable type then
        .ok (.printed name description type)
      else .error .undefined := by
  unfold metricCreate
  rw [snprintf_eq, snprintf_eq, snprintf_eq]
  by_cases printableName : Formattable name <;>
    by_cases printableDescription : Formattable description <;>
    by_cases printableType : Formattable type <;>
    simp only [printableName, printableDescription, printableType, if_true, if_false, and_self,
      and_true, and_false] <;> rfl

theorem metricSetValue_eq (metric : Metric) (val : Bytes) :
    metricSetValue metric val =
      if Formattable val then .ok { metric with val := .ofText 512 (expanded val) }
      else .error .undefined := by
  unfold metricSetValue
  rw [snprintf_eq]
  by_cases printable : Formattable val <;> simp only [printable, if_true, if_false] <;> rfl

theorem recordAddMetric_ok {record after : Record} {metric : Metric}
    (added : recordAddMetric record metric = .ok after) :
    after.metricsCapacity = record.metricsCapacity ∧ after.metrics = record.metrics ++ [metric] := by
  unfold recordAddMetric at added
  split at added
  · contradiction
  · simp only [Except.ok.injEq] at added
    subst after
    exact ⟨rfl, rfl⟩

theorem recordAddMetric_of_room {record : Record} (metric : Metric)
    (room : record.metrics.length < record.metricsCapacity) :
    ∃ after, recordAddMetric record metric = .ok after ∧ after.key = record.key ∧
      after.updateTime = record.updateTime ∧ after.metricsCapacity = record.metricsCapacity ∧
      after.metrics = record.metrics ++ [metric] := by
  unfold recordAddMetric
  rw [dif_neg (by simp only [Record.metricsNum]; omega)]
  exact ⟨_, rfl, rfl, rfl, rfl, rfl⟩

/-- One key slot: the printed value, cut to 511 bytes and zero padded. -/
def keySlot (value : Bytes) : Bytes :=
  (expanded value).take 511 ++ List.replicate (512 - ((expanded value).take 511).length) 0

theorem keySlot_length (value : Bytes) : (keySlot value).length = 512 := by
  have limited := List.length_take_le 511 (expanded value)
  simp only [keySlot, List.length_append, List.length_replicate]
  omega

/-- A key buffer of which the first slots are filled and the rest is still
zero.  This is the shape every append keeps. -/
def keyBuffer (keySize : Nat) (values : List Bytes) : Bytes :=
  values.flatMap keySlot ++ List.replicate (keySize - 512 * values.length) 0

theorem keySlots_length (values : List Bytes) :
    (values.flatMap keySlot).length = 512 * values.length := by
  induction values with
  | nil => rfl
  | cons value rest ih =>
      simp only [List.flatMap_cons, List.length_append, keySlot_length, ih, List.length_cons]
      omega

theorem keyBuffer_length {keySize : Nat} {values : List Bytes}
    (room : 512 * values.length ≤ keySize) : (keyBuffer keySize values).length = keySize := by
  simp only [keyBuffer, List.length_append, keySlots_length, List.length_replicate]
  omega

private theorem zeros_regroup {first left right : Nat} (same : 1 + first = left + right) :
    [(0 : UInt8)] ++ List.replicate first 0 = List.replicate left 0 ++ List.replicate right 0 := by
  rw [List.replicate_append_replicate, ← same, Nat.add_comm, List.replicate_succ,
    List.singleton_append]

theorem overwrite_keyBuffer {keySize : Nat} {values : List Bytes} (value : Bytes)
    (room : 512 * values.length + 512 ≤ keySize) :
    overwrite (keyBuffer keySize values) (512 * values.length) ((expanded value).take 511 ++ [0]) =
      keyBuffer keySize (values ++ [value]) := by
  have filled := keySlots_length values
  have limited := List.length_take_le 511 (expanded value)
  have before : (keyBuffer keySize values).take (512 * values.length) = values.flatMap keySlot := by
    rw [keyBuffer, ← filled, List.take_left]
  have after : (keyBuffer keySize values).drop
      (512 * values.length + ((expanded value).take 511 ++ [0]).length) =
        List.replicate (keySize - 512 * values.length - ((expanded value).take 511).length - 1) 0 := by
    rw [keyBuffer, ← List.drop_drop, ← filled, List.drop_left, List.drop_replicate]
    simp only [List.length_append, List.length_singleton, filled]
    congr 1
  have padding : [(0 : UInt8)] ++ List.replicate
      (keySize - 512 * values.length - ((expanded value).take 511).length - 1) 0 =
        List.replicate (512 - ((expanded value).take 511).length) 0 ++
          List.replicate (keySize - 512 * (values.length + 1)) 0 := by
    apply zeros_regroup
    omega
  rw [overwrite, before, after, keyBuffer, List.flatMap_append, List.length_append]
  simp only [List.flatMap_cons, List.flatMap_nil, List.append_nil, List.length_singleton,
    keySlot, List.append_assoc]
  rw [padding]

/-- Appending to a buffer with a free slot fills exactly that slot. -/
theorem recordAppendKey_of_room {record : Record} {values : List Bytes} {keySize : Nat}
    {value : Bytes} (printable : Formattable value) (small : keySize < 2 ^ 32)
    (filled : record.key = keyBuffer keySize values)
    (room : 512 * values.length + 512 ≤ keySize) :
    recordAppendKey record values.length value =
      .ok { record with key := keyBuffer keySize (values ++ [value]) } := by
  have size : record.keySize = keySize := by
    rw [Record.keySize, filled, keyBuffer_length (by omega)]
  have offset : values.length * 512 % 2 ^ 32 = 512 * values.length := by omega
  obtain ⟨text, printed⟩ := Option.isSome_iff_exists.mp printable
  have same : expanded value = text := by simp [expanded, printed]
  unfold recordAppendKey
  simp only [offset, size]
  rw [if_neg (by omega), if_neg (by omega), printed]
  simp only [← same, filled, overwrite_keyBuffer value room]

end GalaGopher.Imdb
