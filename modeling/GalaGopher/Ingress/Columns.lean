import GalaGopher.Ingress.Decode
import Mathlib.Data.List.Forall2

namespace GalaGopher.Ingress

open GalaGopher.Text GalaGopher.Data GalaGopher.Imdb

/-! A probe writes some values and means others.  The line keeps its columns
when each value meant is the one stored in its field. -/

/-- A value that is stored as it is written. -/
structure Storable (value : Bytes) : Prop where
  nonempty : value ≠ []
  barFree : bar ∉ value
  percentFree : percent ∉ value
  more : value ≠ [newline]
  short : value.length ≤ 511

/-- What is written for a value is its front, or something storable. -/
def Stands (written meant : Bytes) : Prop :=
  (written <+: meant ∧ meant.length ≤ 511 ∧ (written = [] → meant ≠ invalidMetricValue)) ∨ Storable written

/-- The values the parser keeps of a line. -/
def keptValues (values : List Bytes) : List Bytes :=
  (((fieldsText values [newline]).splitOn bar).takeWhile (· ≠ [newline])).map orNull

variable {written meant : Bytes} {values goals : List Bytes}

theorem Storable.stored (storable : Storable written) :
    Formattable (orNull written) ∧ storedValue (orNull written) = written := by
  have same : orNull written = written := if_neg storable.nonempty
  have printable := Formattable.of_percent_free storable.percentFree
  rw [same]
  exact ⟨printable, (take_expanded_eq_self_iff printable storable.short).mpr storable.percentFree⟩

theorem expanded_length {format : Bytes} (printable : Formattable format) :
    (expanded format).length ≤ format.length := by
  obtain ⟨text, printed⟩ := Option.isSome_iff_exists.mp printable
  have same : expanded format = text := by rw [expanded, printed, Option.getD_some]
  rw [same]
  exact (expandFormat_length printed).1

/-- A value is stored as the one meant only if it is that value. -/
theorem Stands.stored_iff (stands : Stands written meant) (free : bar ∉ written) (more : written ≠ [newline]) :
    (Formattable (orNull written) ∧ storedValue (orNull written) = meant) ↔
      written = meant ∧ Storable meant := by
  constructor
  · intro given
    obtain ⟨printable, stored⟩ := given
    rcases stands with ⟨front, short, null⟩ | storable
    · by_cases empty : written = []
      · have unchanged : storedValue invalidMetricValue = invalidMetricValue :=
          (take_expanded_eq_self_iff (Formattable.of_percent_free (by decide)) (by decide)).mpr (by decide)
        rw [orNull, if_pos empty, unchanged] at stored
        exact absurd stored.symm (null empty)
      · rw [orNull, if_neg empty] at printable stored
        have whole : written = meant := by
          apply front.eq_of_length_le
          have cut := congrArg List.length stored
          have shorter := expanded_length printable
          rw [storedValue, List.length_take] at cut
          omega
        rw [← whole] at stored short ⊢
        exact ⟨rfl, empty, free, (take_expanded_eq_self_iff printable short).mp stored, more, short⟩
    · rw [storable.stored.2] at stored
      subst meant
      exact ⟨rfl, storable⟩
  · intro given
    obtain ⟨rfl, storable⟩ := given
    exact storable.stored

theorem Storable.stands (storable : ∀ value ∈ values, Storable value) (count : values.length = goals.length) :
    List.Forall₂ Stands values goals := by
  induction values generalizing goals with
  | nil =>
      rw [List.length_eq_zero_iff.mp count.symm]
      exact .nil
  | cons value rest ih =>
      cases goals with
      | nil => cases count
      | cons goal others =>
          obtain ⟨first, later⟩ := List.forall_mem_cons.mp storable
          exact .cons (.inr first) (ih later (Nat.succ.inj count))

theorem fieldsText_cons (value : Bytes) (rest : List Bytes) (tail : Bytes) :
    fieldsText (value :: rest) tail = value ++ bar :: fieldsText rest tail := rfl

/-- The kept values begin with what is in front of the first bar. -/
theorem keptValues_split {front behind : Bytes} (free : bar ∉ front)
    (line : fieldsText values [newline] = front ++ bar :: behind) :
    keptValues values = if front = [newline] then [] else
      orNull front :: ((behind.splitOn bar).takeWhile (· ≠ [newline])).map orNull := by
  rw [keptValues, line, List.splitOn_append_cons_self_of_not_mem free]
  split
  case isTrue last => rw [last, List.takeWhile_cons_of_neg (by simp), List.map_nil]
  case isFalse more => rw [List.takeWhile_cons_of_pos (by simpa using more), List.map_cons]

/-- A bar inside a value leaves its field with less than was meant. -/
theorem keptValues_bar {value goal : Bytes} {rest others : List Bytes} (cut : bar ∈ value) (stands : Stands value goal)
    (printable : ∀ token ∈ (keptValues (value :: rest)).take (rest.length + 1), Formattable token) :
    ((keptValues (value :: rest)).take (rest.length + 1)).map storedValue ≠ goal :: others := by
  obtain ⟨front, behind, rfl, frontFree⟩ := List.eq_append_cons_of_mem cut
  intro kept
  have line := fieldsText_cons (front ++ bar :: behind) rest [newline]
  rw [List.append_assoc, List.cons_append] at line
  rw [keptValues_split frontFree line] at kept printable
  split at kept
  case isTrue => cases kept
  case isFalse more =>
      rw [if_neg more, List.take_succ_cons, List.forall_mem_cons] at printable
      rw [List.take_succ_cons, List.map_cons, List.cons.injEq] at kept
      rcases stands with ⟨whole, short, _⟩ | storable
      · have part : Stands front goal := by
          refine .inl ⟨(List.prefix_append front _).trans whole, short, ?_⟩
          rintro rfl rfl
          obtain ⟨after, text⟩ := whole
          have first : some bar = invalidMetricValue.head? := congrArg List.head? text
          exact absurd first (by decide)
        obtain ⟨same, _⟩ := (part.stored_iff frontFree more).mp ⟨printable.1, kept.1⟩
        have longer := whole.length_le
        rw [← same, List.length_append, List.length_cons] at longer
        omega
      · exact storable.barFree cut

/-- The values stored are those meant exactly when those are written, and all
are storable. -/
theorem keptValues_iff (stands : List.Forall₂ Stands values goals) :
    ((∀ token ∈ (keptValues values).take values.length, Formattable token) ∧
      ((keptValues values).take values.length).map storedValue = goals) ↔
    values = goals ∧ ∀ goal ∈ goals, Storable goal := by
  induction stands with
  | nil => simp
  | @cons value goal rest others stands _ ih =>
      rw [List.length_cons, List.cons.injEq, List.forall_mem_cons]
      by_cases free : bar ∉ value
      · rw [keptValues_split free (fieldsText_cons value rest [newline])]
        split
        case isTrue last =>
            constructor
            · intro given
              cases given.2
            · intro given
              exact absurd (given.1.1.symm.trans last) given.2.1.more
        case isFalse more =>
            rw [List.take_succ_cons, List.forall_mem_cons, List.map_cons, List.cons.injEq]
            have head := stands.stored_iff free more
            change ((_ ∧ ∀ token ∈ (keptValues rest).take rest.length, _) ∧
              _ ∧ ((keptValues rest).take rest.length).map storedValue = others) ↔ _
            constructor
            · intro given
              obtain ⟨⟨printable, restPrintable⟩, stored, restStored⟩ := given
              obtain ⟨same, storable⟩ := head.mp ⟨printable, stored⟩
              obtain ⟨restSame, restStorable⟩ := ih.mp ⟨restPrintable, restStored⟩
              exact ⟨⟨same, restSame⟩, storable, restStorable⟩
            · intro given
              obtain ⟨⟨same, restSame⟩, storable, restStorable⟩ := given
              obtain ⟨printable, stored⟩ := head.mpr ⟨same, storable⟩
              obtain ⟨restPrintable, restStored⟩ := ih.mpr ⟨restSame, restStorable⟩
              exact ⟨⟨printable, restPrintable⟩, stored, restStored⟩
      · constructor
        · intro given
          exact absurd given.2 (keptValues_bar (not_not.mp free) stands given.1)
        · intro given
          obtain ⟨⟨same, _⟩, storable, _⟩ := given
          exact absurd (same ▸ storable.barFree) free

/-- With something in its first column, a line's content has the kept values. -/
theorem contentValues_kept {front behind : Bytes} (free : bar ∉ front) (nonempty : front ≠ [])
    (line : fieldsText values [newline] = front ++ bar :: behind) :
    contentValues ((bar :: fieldsText values [newline]).splitOn bar) = keptValues values := by
  rw [splitOn_bar_cons, contentValues, List.takeWhile_cons_of_pos (by simp), List.dropWhile_cons_of_pos (by simp),
    keptValues, line, List.splitOn_append_cons_self_of_not_mem free]
  by_cases more : front = [newline]
  · rw [List.takeWhile_cons_of_neg (by simpa using more)]
    rfl
  · rw [List.takeWhile_cons_of_pos (by simpa using more), List.dropWhile_cons_of_neg (by simpa using nonempty)]

variable {table : Table} {metaRecord fresh : Record}

theorem printable_zip_take {fields : List Metric} (formattable : ∀ field ∈ fields, field.Formattable)
    (kept : List Bytes) :
    Printable (fields.zip kept) ↔ ∀ token ∈ kept.take fields.length, Formattable token := by
  rw [← zip_take_left]
  have texts : (fields.zip (kept.take fields.length)).map Prod.snd = kept.take fields.length :=
    List.map_snd_zip (List.length_take_le _ _)
  constructor
  · intro printable token member
    rw [← texts] at member
    obtain ⟨pair, pairMember, rfl⟩ := List.mem_map.mp member
    exact (printable pair pairMember).2
  · intro given pair member
    obtain ⟨fieldMember, tokenMember⟩ := List.of_mem_zip member
    exact ⟨formattable pair.1 fieldMember, given pair.2 tokenMember⟩

/-- The columns of a filled record, by the names of its fields. -/
theorem filled_columns (plain : ∀ field ∈ metaRecord.metrics, Metric.Plain field) (keySize : Nat)
    (kept : List Bytes) :
    (metaRecord.filled keySize kept).metrics.map (fun metric => (metric.name.text, metric.val.text)) =
      (metaRecord.metrics.map fun field => field.name.text).zip
        ((kept.take metaRecord.metrics.length).map storedValue) := by
  rw [Record.filled_metrics, List.map_map, ← zip_take_left, List.zip_map]
  apply List.map_congr_left
  intro pair member
  have name := (plain_iff.mp (plain pair.1 (List.of_mem_zip member).1)).2.1
  rw [Function.comp_apply, Prod.map_apply]
  exact Prod.ext name rfl

/-- Parsing the line gives the record of the values meant exactly when those
are the values written, and all are storable. -/
theorem parseContent_columns_iff (loaded : table.Loaded metaRecord)
    (created : recordCreateWithKey metaRecord.metricsCapacity table.recordKeySize = some fresh)
    (plain : ∀ field ∈ metaRecord.metrics, Metric.Plain field) (count : values.length = metaRecord.metrics.length)
    {front behind : Bytes} (free : bar ∉ front) (nonempty : front ≠ [])
    (line : fieldsText values [newline] = front ++ bar :: behind) (stands : List.Forall₂ Stands values goals) :
    (∃ record, dataBaseMgrParseContent metaRecord fresh (bar :: fieldsText values [newline]) true = .ok record ∧
      record.metrics.map (fun metric => (metric.name.text, metric.val.text)) =
        (metaRecord.metrics.map fun field => field.name.text).zip goals) ↔
    values = goals ∧ ∀ goal ∈ goals, Storable goal := by
  have formattable : ∀ field ∈ metaRecord.metrics, field.Formattable :=
    fun field member => (plain_iff.mp (plain field member)).1
  rw [dataBaseMgrParseContent, parseTokens_eq, loaded.fills_created created,
    contentValues_kept free nonempty line, ← keptValues_iff stands, count,
    ← printable_zip_take formattable]
  by_cases printable : Printable (metaRecord.metrics.zip (keptValues values))
  · rw [if_pos printable]
    have columns := filled_columns plain table.recordKeySize (keptValues values)
    have names : (metaRecord.metrics.map fun field => field.name.text).length = metaRecord.metrics.length :=
      List.length_map _
    have goalsCount := stands.length_eq
    constructor
    · intro given
      obtain ⟨record, parsed, read⟩ := given
      cases parsed
      rw [columns] at read
      refine ⟨printable, ?_⟩
      have texts := congrArg (List.map Prod.snd) read
      rwa [List.map_snd_zip (by rw [names, List.length_map]; exact List.length_take_le _ _),
        List.map_snd_zip (by omega)] at texts
    · intro given
      exact ⟨_, rfl, by rw [columns, given.2]⟩
  · rw [if_neg printable]
    constructor
    · intro given
      obtain ⟨_, parsed, _⟩ := given
      cases parsed
    · intro given
      exact absurd given.1 printable

end GalaGopher.Ingress
