import GalaGopher.Ingress.Line

namespace GalaGopher.Ingress

open GalaGopher.Text GalaGopher.Data GalaGopher.Imdb

variable {mgr : DataBaseMgr} {table : Table} {metaRecord : Record} {position : Nat} {now : Int}
  {name rest : Bytes} {first second tokens : List Bytes}

/-- Splitting a line and storing its content, as ingress does. -/
def storeLine (mgr : DataBaseMgr) (dataStr : Bytes) (now : Int) : Option (Option Record × DataBaseMgr) :=
  match getTableNameAndContent dataStr 32 with
  | none => some (none, mgr)
  | some (name, content) =>
      match dataBaseMgrFindTable mgr name with
      | none => some (none, mgr)
      | some position => dataBaseMgrCreateRec mgr position content now

/-- Both calls return, one with a record exactly when the other with 0, and
leave the same database. -/
def Agree (created : Option (Option Record × DataBaseMgr)) (added : Option (Int × DataBaseMgr)) : Prop :=
  ∃ handle ret after, created = some (handle, after) ∧ added = some (ret, after) ∧
    (handle.isSome ↔ ret = 0)

theorem recordUpdateTime_filled_inj {keySize : Nat}
    (same : recordUpdateTime (metaRecord.filled keySize first) now =
      recordUpdateTime (metaRecord.filled keySize second) now) :
    metaRecord.filled keySize first = metaRecord.filled keySize second := by
  have key := congrArg Record.key same
  have metrics := congrArg Record.metrics same
  exact Record.ext key rfl rfl metrics

theorem setTable_inj {left right : Table} (stored : mgr.tables[position]? = some table)
    (same : mgr.setTable position left = mgr.setTable position right) : left = right := by
  have found : (mgr.setTable position left).tables[position]? = some left :=
    DataBaseMgr.setTable_found stored
  rw [same, DataBaseMgr.setTable_found stored, Option.some.injEq] at found
  exact found.symm

/-- Both values were appended last, so the tables tell them apart. -/
theorem put_inj {left right : Record} (stored : mgr.tables[position]? = some table)
    (same : mgr.setTable position (table.withRecords (KeyedList.put Record.key left table.records)) =
      mgr.setTable position (table.withRecords (KeyedList.put Record.key right table.records))) :
    left = right := by
  have records := congrArg Table.records (setTable_inj stored same)
  rw [Table.withRecords_records, Table.withRecords_records, KeyedList.put, KeyedList.put] at records
  exact List.singleton_inj.mp (List.append_inj_right' records rfl)

theorem insertValues_agree_iff (stored : mgr.tables[position]? = some table) :
    Agree (insertValues mgr position table metaRecord first now)
        ((insertValues mgr position table metaRecord second now).map insertionCode) ↔
      Printable (metaRecord.metrics.zip first) ∧ Printable (metaRecord.metrics.zip second) ∧
        (storedValues metaRecord.metrics first = storedValues metaRecord.metrics second ∨
          (table.Refuses (metaRecord.filled table.recordKeySize first).key ∧
            table.Refuses (metaRecord.filled table.recordKeySize second).key)) := by
  have records := @filled_eq_iff metaRecord table.recordKeySize first second
  rw [← records]
  constructor
  · intro given
    obtain ⟨handle, ret, after, created, added, succeeds⟩ := given
    obtain ⟨outcome, other, coded⟩ := Option.map_eq_some_iff.mp added
    simp only [insertionCode, Prod.mk.injEq] at coded
    obtain ⟨code, left⟩ := coded
    simp only [insertValues] at created other
    split at created
    · rename_i printableFirst
      split at other
      · rename_i printableSecond
        refine ⟨printableFirst, printableSecond, ?_⟩
        split at created
        · rename_i refusedFirst
          split at other
          · rename_i refusedSecond
            exact .inr ⟨refusedFirst, refusedSecond⟩
          · simp only [Option.some.injEq] at created other
            subst outcome
            obtain ⟨rfl, -⟩ := Prod.mk.inj created
            simp only [Option.isSome_some, if_true] at code
            simp [← code] at succeeds
        · split at other
          · simp only [Option.some.injEq] at created other
            subst outcome
            obtain ⟨rfl, -⟩ := Prod.mk.inj created
            simp only [Option.isSome_none, Bool.false_eq_true, if_false] at code
            simp [← code] at succeeds
          · simp only [Option.some.injEq] at created other
            subst outcome
            obtain ⟨-, database⟩ := Prod.mk.inj created
            exact .inl (recordUpdateTime_filled_inj (put_inj stored (database.trans left.symm)))
      · contradiction
    · contradiction
  · rintro ⟨printableFirst, printableSecond, same | ⟨refusedFirst, refusedSecond⟩⟩
    · simp only [insertValues, printableFirst, printableSecond, if_true, same]
      split
      · exact ⟨none, -1, mgr, rfl, rfl, by simp⟩
      · exact ⟨_, 0, _, rfl, rfl, by simp⟩
    · simp only [insertValues, printableFirst, printableSecond, if_true, refusedFirst, refusedSecond]
      exact ⟨none, -1, mgr, rfl, rfl, by simp⟩

theorem contentValues_skip (tokens : List Bytes) : contentValues ([] :: tokens) = contentValues tokens := by
  simp [contentValues]

/-- What either parser will store for the tokens behind the table's name, or
that it will be refused for want of room. -/
structure ReadAlike (table : Table) (metaRecord : Record) (tokens : List Bytes) : Prop where
  content : Printable (metaRecord.metrics.zip (contentValues tokens))
  record : Printable (metaRecord.metrics.zip (recordValues tokens))
  alike : storedValues metaRecord.metrics (contentValues tokens) =
      storedValues metaRecord.metrics (recordValues tokens) ∨
    (table.Refuses (metaRecord.filled table.recordKeySize (contentValues tokens)).key ∧
      table.Refuses (metaRecord.filled table.recordKeySize (recordValues tokens)).key)

/-- The two paths agree on a line exactly when its tokens read alike. -/
theorem ingest_paths_agree_iff (loaded : table.Loaded metaRecord)
    (found : dataBaseMgrFindTable mgr name = some position) (stored : mgr.tables[position]? = some table)
    (keyed : table.recordKeySize ≠ 0) (named : name ≠ [] ∧ name ≠ [newline] ∧ bar ∉ name)
    (rest : Bytes) (now : Int) :
    Agree (storeLine mgr (bar :: (name ++ bar :: rest)) now)
        (dataBaseMgrAddRecord mgr (bar :: (name ++ bar :: rest)) now) ↔
      ReadAlike table metaRecord (rest.splitOn bar) := by
  obtain ⟨nonempty, printed, free⟩ := named
  have short : name.length < 32 := by
    obtain ⟨other, otherStored, same⟩ := dataBaseMgrFindTable_some found
    rw [← same]
    exact Nat.lt_succ_of_le other.name.fits
  have tokens : (bar :: (name ++ bar :: rest)).splitOn bar = [] :: name :: rest.splitOn bar := by
    rw [splitOn_bar_cons, List.splitOn_append_cons_self_of_not_mem free]
  have token : tableToken ((bar :: (name ++ bar :: rest)).splitOn bar) = some (name, rest.splitOn bar) := by
    rw [tokens]
    simp [tableToken, nonempty, printed]
  have created : storeLine mgr (bar :: (name ++ bar :: rest)) now =
      insertValues mgr position table metaRecord (contentValues (rest.splitOn bar)) now := by
    rw [storeLine, getTableNameAndContent_named nonempty free short]
    simp only [found]
    rw [dataBaseMgrCreateRec_eq stored loaded keyed, splitOn_bar_cons, contentValues_skip]
  rw [created, dataBaseMgrAddRecord_eq token found stored loaded keyed, insertValues_agree_iff stored]
  constructor
  · intro given
    obtain ⟨content, record, alike⟩ := given
    exact ⟨content, record, alike⟩
  · intro alike
    exact ⟨alike.content, alike.record, alike.alike⟩

/-- An empty first value is dropped by one parser and stored by the other. -/
theorem ingest_paths_disagree :
    ¬ Agree (storeLine sampleMgr (ascii "|link||7|") 0) (dataBaseMgrAddRecord sampleMgr (ascii "|link||7|") 0) := by
  intro given
  obtain ⟨handle, ret, after, created, added, -⟩ := given
  have same : (storeLine sampleMgr (ascii "|link||7|") 0).map Prod.snd =
      (dataBaseMgrAddRecord sampleMgr (ascii "|link||7|") 0).map Prod.snd := by
    rw [created, added]
    rfl
  revert same
  decide +kernel

theorem ingest_paths_agree_link :
    let line := bar :: (ascii "link" ++ bar :: ascii "eth0|7|")
    Agree (storeLine sampleMgr line 5) (dataBaseMgrAddRecord sampleMgr line 5) ↔
      ReadAlike sampleLoadedTable sampleMetaRecord ((ascii "eth0|7|").splitOn bar) := by
  have found : dataBaseMgrFindTable sampleMgr (ascii "link") = some 0 := by decide
  have keyed : sampleLoadedTable.recordKeySize ≠ 0 := by decide
  have named : ascii "link" ≠ [] ∧ ascii "link" ≠ [newline] ∧ bar ∉ ascii "link" := by decide
  exact ingest_paths_agree_iff sampleLoadedTable_loaded found rfl keyed named (ascii "eth0|7|") 5

theorem values_agree (first : tokens.head? ≠ some []) (inner : ∀ token ∈ tokens, token ≠ [newline]) :
    contentValues tokens = tokens.map orNull ∧ recordValues tokens = tokens.map orNull := by
  have whole : tokens.takeWhile (· ≠ [newline]) = tokens := by
    rw [List.takeWhile_eq_self_iff]
    simpa using inner
  have all : tokens.filter (· ≠ [newline]) = tokens := by
    rw [List.filter_eq_self]
    simpa using inner
  refine ⟨?_, by rw [recordValues, all]⟩
  rw [contentValues, whole]
  cases tokens with
  | nil => rfl
  | cons token others => rw [List.dropWhile_cons_of_neg (by simpa using first)]

theorem values_of_newline (inner : ∀ token ∈ tokens, token ≠ [newline]) :
    contentValues (tokens ++ [[newline]]) = contentValues tokens ∧
      recordValues (tokens ++ [[newline]]) = recordValues tokens := by
  have kept : ∀ token ∈ tokens, decide (token ≠ [newline]) = true := by simpa using inner
  constructor
  · rw [contentValues, contentValues, List.takeWhile_append_of_pos kept, List.takeWhile_eq_self_iff.mpr kept]
    simp
  · simp [recordValues]

/-- A line whose first value is written and which has a lone newline at most at
its end reads alike. -/
theorem readAlike_of_first (first : tokens.head? ≠ some []) (inner : ∀ token ∈ tokens, token ≠ [newline])
    (printable : Printable (metaRecord.metrics.zip (tokens.map orNull))) :
    ReadAlike table metaRecord tokens ∧ ReadAlike table metaRecord (tokens ++ [[newline]]) := by
  obtain ⟨content, record⟩ := values_agree first inner
  obtain ⟨contentCut, recordCut⟩ := values_of_newline inner
  rw [content] at contentCut
  rw [record] at recordCut
  constructor
  · exact ⟨by rwa [content], by rwa [record], .inl (by rw [content, record])⟩
  · exact ⟨by rwa [contentCut], by rwa [recordCut], .inl (by rw [contentCut, recordCut])⟩

end GalaGopher.Ingress
