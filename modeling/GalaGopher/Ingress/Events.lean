import GalaGopher.Ingress.Line
import GalaGopher.Probe.EventLog
import GalaGopher.Probe.ExtendProbe

namespace GalaGopher.Ingress

open GalaGopher.Text GalaGopher.Data GalaGopher.Imdb GalaGopher.Probe

/-- The fields of `event.meta`. -/
def eventMeta : Record where
  key := []
  updateTime := 0
  metricsCapacity := 6
  metrics := [
    .printed (ascii "tblName") (ascii "Name of the table to which the indicator belongs.") (ascii "string"),
    .printed (ascii "EntityID") (ascii "ID of entity where the exception occurs.") (ascii "string"),
    .printed (ascii "metrics") (ascii "Metrics where exceptions occur.") (ascii "string"),
    .printed (ascii "SeverityText")
      (ascii "This is the string representation of the severity as it is known at the source.") (ascii "string"),
    .printed (ascii "SeverityNumber")
      (ascii "Numerical value of the severity, normalized to values described in this document.") (ascii "number"),
    .printed (ascii "Body") (ascii "Event Body, can be for example a human-readable string message")
      (ascii "byte sequence")]
  within := Nat.le_refl 6

/-- The records of the lines that name the event table.  A line that is
refused, or that names another table, is passed over. -/
def eventRecords : List Bytes → Outcome (List Record)
  | [] => .ok []
  | line :: rest =>
      match getTableNameAndContent line 32, recordCreate eventMeta.metricsCapacity with
      | some (name, content), some fresh =>
          if name = ascii "event" then
            match dataBaseMgrParseContent eventMeta fresh content false with
            | .error .undefined => .error .undefined
            | .error .failed => eventRecords rest
            | .ok record => do
                let records ← eventRecords rest
                return record :: records
          else eventRecords rest
      | _, _ => eventRecords rest

/-- One record comes of the call, and its fields are the arguments and the
body, which may have lost its line breaks. -/
structure RoundTrips (call : ReportCall) : Prop where
  arrives : ∃ state record body, runExtendProbe (fun _ => .sent) (reportLogs call) = some state ∧
    (∀ held, state.dataStr = some held → held.length < maxDataStrLen) ∧
    eventRecords state.offered = .ok [record] ∧
    record.metrics.map (fun metric => metric.val.text) =
      [call.tblName, call.entityId, call.metrics, call.sec.secText,
        ascii (toString call.sec.secNumber), body] ∧
    body.filter (· ≠ newline) = (eventBody call).filter (· ≠ newline)

variable {call : ReportCall} {lines : List Bytes} {records : List Record} {record : Record}
  {line content text time rest : Bytes}

/-- Where a record comes from. -/
theorem exists_line_of_eventRecords (made : eventRecords lines = .ok records) (member : record ∈ records) :
    ∃ line ∈ lines, ∃ name content fresh, getTableNameAndContent line 32 = some (name, content) ∧
      fresh.metrics = [] ∧ dataBaseMgrParseContent eventMeta fresh content false = .ok record := by
  induction lines generalizing records with
  | nil =>
      cases made
      cases member
  | cons line lines ih =>
      unfold eventRecords at made
      split at made
      · rename_i name content fresh split created
        split at made
        · split at made
          · cases made
          · obtain ⟨found, present, source⟩ := ih made member
            exact ⟨found, List.mem_cons_of_mem _ present, source⟩
          · rename_i first parsed
            rw [Outcome.bind_ok_iff] at made
            obtain ⟨later, rest, same⟩ := made
            cases same
            rcases List.mem_cons.mp member with same | there
            · subst first
              cases created
              exact ⟨line, List.mem_cons_self, name, content, _, split, rfl, parsed⟩
            · obtain ⟨found, present, source⟩ := ih rest there
              exact ⟨found, List.mem_cons_of_mem _ present, source⟩
        · obtain ⟨found, present, source⟩ := ih made member
          exact ⟨found, List.mem_cons_of_mem _ present, source⟩
      · obtain ⟨found, present, source⟩ := ih made member
        exact ⟨found, List.mem_cons_of_mem _ present, source⟩

theorem length_splitOn_bar (text : Bytes) : (text.splitOn bar).length = text.count bar + 1 := by
  induction text with
  | nil => rfl
  | cons byte rest ih =>
      rw [List.splitOn_cons_eq_if_modifyHead, List.count_cons]
      by_cases same : byte = bar
      · simp [same, ih]
      · simp [same, ih]

/-- What two bars enclose and what follows them make up the line. -/
theorem getTableNameAndContent_split {name : Bytes} (split : getTableNameAndContent line 32 = some (name, content)) :
    ∃ rest, line = bar :: (name ++ content) ∧ content = bar :: rest := by
  cases line with
  | nil => cases split
  | cons first p1 =>
      simp only [getTableNameAndContent] at split
      split at split
      · cases split
      · rename_i opened
        split at split
        · cases split
        · rename_i more
          split at split
          · cases split
          · split at split
            · cases split
            · cases split
              obtain ⟨byte, rest, starts⟩ := List.exists_cons_of_ne_nil more
              have barred : byte = bar := by
                have kept := List.head?_dropWhile_not (· ≠ bar) p1
                rw [starts] at kept
                simpa using kept
              exact ⟨rest, by rw [List.takeWhile_append_dropWhile, not_not.mp opened], by rw [starts, barred]⟩

/-- Values that fill the fields leave none of the tokens out. -/
theorem contentValues_full (enough : rest.count bar + 1 ≤ (contentValues ((bar :: rest).splitOn bar)).length) :
    contentValues ((bar :: rest).splitOn bar) = (rest.splitOn bar).map orNull := by
  have split : contentValues ((bar :: rest).splitOn bar) =
      (((rest.splitOn bar).takeWhile (· ≠ [newline])).dropWhile (· = [])).map orNull := by
    rw [splitOn_bar_cons, contentValues, List.takeWhile_cons_of_pos (by decide), List.dropWhile_cons_of_pos (by decide)]
  have part : (((rest.splitOn bar).takeWhile (· ≠ [newline])).dropWhile (· = [])).Sublist (rest.splitOn bar) :=
    (List.dropWhile_suffix _).sublist.trans (List.takeWhile_prefix _).sublist
  rw [split, List.length_map, ← length_splitOn_bar] at enough
  rw [split, part.eq_of_length_le enough]

theorem exists_front_of_suffix {front : Bytes} (suffix : rest <:+ front ++ bar :: time) (free : bar ∉ time)
    (barred : bar ∈ rest) : ∃ before, rest = before ++ bar :: time := by
  rcases List.suffix_or_suffix_of_suffix suffix (List.suffix_append front (bar :: time)) with short | long
  · rcases List.suffix_cons_iff.mp short with whole | shorter
    · exact ⟨[], whole⟩
    · exact absurd (shorter.subset barred) free
  · obtain ⟨before, same⟩ := long
    exact ⟨before, same.symm⟩

/-- A line of at most seven bars fills the six fields only with what follows
its last bar in the last of them. -/
theorem last_value {front name : Bytes} {fresh : Record} (suffix : line <:+ front ++ bar :: time) (free : bar ∉ time)
    (few : (front ++ bar :: time).count bar ≤ 7) (split : getTableNameAndContent line 32 = some (name, content))
    (blank : fresh.metrics = []) (parsed : dataBaseMgrParseContent eventMeta fresh content false = .ok record)
    (six : record.metrics.length = 6) :
    (record.metrics.map fun metric => metric.val.text).getLast? = some (storedValue (orNull time)) := by
  obtain ⟨rest, whole, rfl⟩ := getTableNameAndContent_split split
  have fields : eventMeta.metrics.length = 6 := rfl
  have counted : rest.count bar ≤ 5 := by
    have fewer := suffix.sublist.count_le bar
    rw [whole, List.count_cons_self, List.count_append, List.count_cons_self] at fewer
    omega
  rw [dataBaseMgrParseContent, parseTokens_eq] at parsed
  have metrics := fillAll_metrics parsed
  rw [blank, List.nil_append] at metrics
  have length := congrArg List.length metrics
  rw [List.length_map, List.length_zip, six, fields] at length
  have values := contentValues_full (by omega : rest.count bar + 1 ≤ (contentValues ((bar :: rest).splitOn bar)).length)
  rw [values, List.length_map, length_splitOn_bar] at length
  have texts : (record.metrics.map fun metric => metric.val.text) =
      ((rest.splitOn bar).map orNull).map storedValue := by
    have within : ((rest.splitOn bar).map orNull).length ≤ eventMeta.metrics.length := by
      rw [List.length_map, length_splitOn_bar, fields]
      omega
    have back := congrArg (List.map storedValue) (List.map_snd_zip within)
    rw [List.map_map] at back
    rw [metrics, values, List.map_map, ← back]
    rfl
  have inside : rest <:+ front ++ bar :: time := by
    refine List.IsSuffix.trans ?_ suffix
    rw [whole]
    exact ⟨bar :: (name ++ [bar]), by simp⟩
  obtain ⟨before, rfl⟩ := exists_front_of_suffix inside free (List.count_pos_iff.mp (by omega))
  rw [texts, List.splitOn_append_cons_self, List.splitOn_eq_singleton free, List.map_append, List.map_append,
    List.map_singleton, List.map_singleton, List.getLast?_concat]

theorem storedValue_length_le (value : Bytes) : (storedValue value).length ≤ value.length := by
  rw [storedValue, List.length_take, expanded]
  cases printed : expandFormat value with
  | none => exact Nat.zero_le _
  | some text =>
      have shorter := (expandFormat_length printed).1
      rw [Option.getD_some]
      omega

/-- The line up to the newline of `asctime`. -/
def firstLine (call : ReportCall) : Bytes :=
  bar :: (ascii "event" ++ bar :: fieldsText [call.tblName, call.entityId, call.metrics, call.sec.secText]
    (ascii (toString call.sec.secNumber) ++ bar :: clockText call.tm))

theorem reportLogs_lines (clean : CleanCall call) : ∃ rest, rest.all plainByte ∧
    eventBody call = clockText call.tm ++ newline :: 32 :: rest ∧
    reportLogs call = firstLine call ++ newline :: (32 :: (rest ++ [bar]) ++ newline :: []) := by
  obtain ⟨rest, body, plain⟩ := eventBody_eq clean
  refine ⟨rest, plain, body, ?_⟩
  rw [reportLogs_eq, body]
  simp only [probeLine, firstLine, fieldsText, List.foldr_cons, List.foldr_nil, List.append_assoc,
    List.cons_append, List.nil_append, if_true]

theorem firstLine_bars (clean : CleanCall call) : (firstLine call).count bar = 7 := by
  have none {text : Bytes} (plain : text.all plainByte) : text.count bar = 0 :=
    List.count_eq_zero.mpr (bar_free plain)
  have event : (ascii "event").count bar = 0 := by decide
  simp only [firstLine, fieldsText, List.foldr_cons, List.foldr_nil, List.count_cons_self, List.count_append, event,
    none clean.tblName, none clean.entityId, none clean.metrics, none (secText_plain call.sec),
    none (number_plain call.sec.secNumber), none (clockText_plain call.tm)]

theorem firstLine_plain (clean : CleanCall call) : newline ∉ firstLine call ∧ (0 : UInt8) ∉ firstLine call := by
  have all : (firstLine call).all fun byte => byte = bar || plainByte byte := by
    have widen {text : Bytes} (plain : text.all plainByte) : text.all fun byte => byte = bar || plainByte byte := by
      rw [List.all_eq_true] at plain ⊢
      intro byte member
      rw [plain byte member, Bool.or_true]
    have event : (ascii "event").all fun byte => byte = bar || plainByte byte := by decide
    simp only [firstLine, fieldsText, List.foldr_cons, List.foldr_nil, List.all_cons, List.all_append, event,
      widen clean.tblName, widen clean.entityId, widen clean.metrics, widen (secText_plain call.sec),
      widen (number_plain call.sec.secNumber), widen (clockText_plain call.tm), decide_true, Bool.true_or,
      Bool.and_self]
  rw [List.all_eq_true] at all
  constructor
  · intro member
    exact absurd (all newline member) (by decide)
  · intro member
    exact absurd (all 0 member) (by decide)

theorem firstLine_split (call : ReportCall) : ∃ front, firstLine call = front ++ bar :: clockText call.tm := by
  refine ⟨bar :: (ascii "event" ++ bar :: fieldsText [call.tblName, call.entityId, call.metrics, call.sec.secText]
    (ascii (toString call.sec.secNumber))), ?_⟩
  simp only [firstLine, fieldsText, List.foldr_cons, List.foldr_nil, List.append_assoc, List.cons_append]

/-- What is offered to the FIFO ends one of the two lines. -/
theorem offered_suffix {state : ProbeState} (clean : CleanCall call)
    (lines : reportLogs call = firstLine call ++ newline :: (32 :: (rest ++ [bar]) ++ newline :: []))
    (plain : rest.all plainByte) (run : runExtendProbe (fun _ => .sent) (reportLogs call) = some state)
    (inside : ∀ held, state.dataStr = some held → held.length < maxDataStrLen) (offered : line ∈ state.offered) :
    line <:+ firstLine call ∨ line <:+ 32 :: (rest ++ [bar]) := by
  obtain ⟨firstFree, firstTerminated⟩ := firstLine_plain clean
  have secondFree : newline ∉ (32 :: (rest ++ [bar]) : Bytes) := by
    simp only [List.mem_cons, List.mem_append, newline_free plain, false_or, List.not_mem_nil, or_false]
    decide
  have terminated : (0 : UInt8) ∉ reportLogs call := by
    rw [lines]
    simp only [List.mem_append, List.mem_cons, firstTerminated, zero_free plain, List.not_mem_nil, or_false, false_or]
    decide
  have certain : ∀ number : Nat, PutOutcome.sent ≠ .untriggered := fun _ => by decide
  have cut := cut_fgetsAll (reportLogs call)
  by_cases settled : Settled (fgetsAll (reportLogs call))
  · obtain ⟨same, sameRun, taken, -⟩ := runExtendProbe_settled terminated certain settled
    rw [run, Option.some.injEq] at sameRun
    subst same
    rw [taken] at offered
    obtain ⟨opened, whole, member, suffix⟩ := cut.taken_suffix (by decide) line offered
    rw [lines, List.splitOn_append_cons_self_of_not_mem firstFree,
      List.splitOn_append_cons_self_of_not_mem secondFree, List.splitOn_nil] at member
    rcases List.mem_cons.mp member with first | later
    · exact .inl (first ▸ suffix)
    · rcases List.mem_cons.mp later with second | last
      · exact .inr (second ▸ suffix)
      · rw [List.mem_singleton.mp last, List.suffix_nil] at suffix
        rw [suffix] at opened
        cases opened
  · have overrun : Overrun (runExtendProbe (fun _ => .sent) (reportLogs call)) :=
      (fold_cut cut terminated certain).2 settled
    obtain ⟨held, keeps, reached⟩ := overrun state run
    exact absurd (inside held keeps) (Nat.not_lt_of_le reached)

/-- No call makes the round trip: what follows the time is cut off by the
newline, and no reader of lines puts it back. -/
theorem not_roundTrips (clean : CleanCall call) : ¬ RoundTrips call := by
  intro trip
  obtain ⟨state, record, body, run, inside, made, values, same⟩ := trip.arrives
  obtain ⟨rest, plain, whole, lines⟩ := reportLogs_lines clean
  obtain ⟨line, offered, name, content, fresh, split, blank, parsed⟩ :=
    exists_line_of_eventRecords made (List.mem_singleton_self record)
  obtain ⟨front, first⟩ := firstLine_split call
  have free := bar_free (clockText_plain call.tm)
  have six : record.metrics.length = 6 := by
    have length := congrArg List.length values
    rw [List.length_map] at length
    exact length
  rcases offered_suffix clean lines plain run inside offered with suffix | suffix
  · have few := firstLine_bars clean
    rw [first] at suffix few
    have last := last_value suffix free (Nat.le_of_eq few) split blank parsed six
    rw [values] at last
    have found : body = storedValue (orNull (clockText call.tm)) := Option.some.inj last
    have named : orNull (clockText call.tm) = clockText call.tm := if_neg (by simp [clockText, ascii])
    rw [named] at found
    have short := storedValue_length_le (clockText call.tm)
    have kept : (clockText call.tm).filter (· ≠ newline) = clockText call.tm := by
      rw [List.filter_eq_self]
      intro byte member
      exact decide_eq_true fun equal => newline_free (clockText_plain call.tm) (equal ▸ member)
    have lengths := congrArg List.length same
    have bounded := List.length_filter_le (· ≠ newline) body
    rw [whole, List.filter_append, kept, List.filter_cons_of_neg (by decide), List.filter_cons_of_pos (by decide),
      List.length_append, List.length_cons] at lengths
    rw [← found] at short
    omega
  · obtain ⟨behind, split, opens⟩ := getTableNameAndContent_split split
    have fewer := suffix.sublist.count_le bar
    have none : rest.count bar = 0 := List.count_eq_zero.mpr (bar_free plain)
    rw [split, opens, List.count_cons_self, List.count_append, List.count_cons_self,
      List.count_cons_of_ne (by decide), List.count_append, none, List.count_singleton_self] at fewer
    omega

theorem reportLogs_never_roundTrips (call : ReportCall) (clean : CleanCall call) : ¬ RoundTrips call :=
  not_roundTrips clean

def sampleTm : Tm where
  wday := 4
  mon := 0
  mday := 1
  hour := 8
  min := 0
  sec := 0
  year := 1970
  yearInt := by decide

def sampleCall : ReportCall where
  tm := sampleTm
  tblName := ascii "tcp"
  entityId := ascii "1"
  metrics := ascii "rx"
  sec := .warn
  message := ascii "slow"

theorem sampleCall_clean : CleanCall sampleCall :=
  ⟨by decide, by decide, by decide, by decide⟩

/-- Arguments without bars and newlines are not enough. -/
theorem sampleCall_cut_short : CleanCall sampleCall ∧ ¬ RoundTrips sampleCall :=
  ⟨sampleCall_clean, not_roundTrips sampleCall_clean⟩

theorem reportLogs_never_roundTrips_warn : ¬ RoundTrips sampleCall :=
  reportLogs_never_roundTrips sampleCall sampleCall_clean

end GalaGopher.Ingress
