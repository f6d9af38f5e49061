import GalaGopher.Ebpf.Ksli
import Mathlib.Data.List.Induction

namespace GalaGopher.Ebpf.Ksli

/-- A sample with the two readings of the clock its time lies between. -/
structure Measured where
  sample : RttCmd
  startTsNsec : UInt64
  endTsNsec : UInt64

/-- The time is the difference of the readings, which did not wrap. -/
def Measured.Exact (measured : Measured) : Prop :=
  measured.startTsNsec ≤ measured.endTsNsec ∧
    measured.sample.rttNsec.toNat = measured.endTsNsec.toNat - measured.startTsNsec.toNat

/-- The readings of a sample that an event finishes. -/
def Conn.finishes (conn : Conn) : Event → Option (UInt64 × UInt64)
  | .skbDelivered skb endTsNsec =>
      if conn.csd.status = .sampSkbReady ∧ conn.csd.skb = skb ∧ ¬ endTsNsec < conn.csd.startTsNsec then
        some (conn.csd.startTsNsec, endTsNsec)
      else
        none
  | _ => none

/-- The samples of the period that a read finds open. -/
def openPending (report : Option MsgEventData) (pending : List Measured) : List Measured :=
  if report.isSome then [] else pending

/-- A connection with its past: the reports with the samples taken since the
report before, those taken since the last one, and all of them. -/
structure Reported where
  conn : Conn := {}
  readings : UInt64 × UInt64 := (0, 0)
  reports : List (MsgEventData × List Measured) := []
  pending : List Measured := []
  samples : List Measured := []

namespace Reported

def step (reported : Reported) (event : Event) : Reported :=
  let (conn, report) := reported.conn.step event
  let taken := (reported.conn.taken event).toList.map fun sample =>
    { sample, startTsNsec := reported.readings.1, endTsNsec := reported.readings.2 : Measured }
  { conn
    readings := (reported.conn.finishes event).getD reported.readings
    reports := reported.reports ++ report.toList.map fun report => (report, reported.pending)
    pending := openPending report reported.pending ++ taken
    samples := reported.samples ++ taken }

def after (events : List Event) : Reported := events.foldl step {}

@[simp] theorem after_concat (events : List Event) (event : Event) :
    after (events ++ [event]) = (after events).step event := by
  simp [after]

end Reported

/-- A report summarises the samples it covers. -/
structure Summary (report : MsgEventData) (covered : List Measured) : Prop where
  counted : report.sampleNum.toNat = covered.length
  nonempty : covered ≠ []
  recent : (covered.map Measured.sample).getLast? = some report.recent
  max : report.max ∈ covered.map Measured.sample
  min : report.min ∈ covered.map Measured.sample
  bounded : ∀ measured ∈ covered,
    report.min.rttNsec ≤ measured.sample.rttNsec ∧ measured.sample.rttNsec ≤ report.max.rttNsec

/-- The records of the open period summarise the samples taken in it. -/
structure Records (connData : ConnData) (pending : List Measured) : Prop where
  counted : connData.sampleNum.toNat = pending.length
  recent : pending ≠ [] → (pending.map Measured.sample).getLast? = some connData.recent
  max : pending ≠ [] → connData.max ∈ pending.map Measured.sample
  min : pending ≠ [] → connData.min ∈ pending.map Measured.sample
  bounded : ∀ measured ∈ pending,
    connData.min.rttNsec ≤ measured.sample.rttNsec ∧ measured.sample.rttNsec ≤ connData.max.rttNsec

theorem records_empty {connData : ConnData} (none : connData.sampleNum = 0) : Records connData [] where
  counted := by rw [none]; rfl
  recent absurd := (absurd rfl).elim
  max absurd := (absurd rfl).elim
  min absurd := (absurd rfl).elim
  bounded := by simp

variable {connData : ConnData} {conn : Conn} {pending : List Measured} {tsNsec : UInt64}

/-- What `periodic_report` emits and leaves. -/
theorem Records.periodicReport (records : Records connData pending) (tsNsec : UInt64) :
    match (periodicReport tsNsec connData).2 with
    | some report => Summary report pending ∧ Records (Ksli.periodicReport tsNsec connData).1 []
    | none => Records (Ksli.periodicReport tsNsec connData).1 pending := by
  unfold Ksli.periodicReport
  by_cases due : tsNsec > connData.lastReportTsNsec ∧ tsNsec - connData.lastReportTsNsec ≥ period
  · by_cases some : connData.sampleNum > 0
    · have nonempty : pending ≠ [] := by
        rintro rfl
        have counted := records.counted
        rw [List.length_nil] at counted
        exact absurd (UInt32.lt_iff_toNat_lt.mp some) (by rw [counted]; simp)
      simp only [if_pos due, if_pos some]
      exact ⟨⟨records.counted, nonempty, records.recent nonempty, records.max nonempty,
        records.min nonempty, records.bounded⟩, records_empty rfl⟩
    · simp only [if_pos due, if_neg some]
      exact ⟨records.counted, records.recent, records.max, records.min, records.bounded⟩
  · simp only [if_neg due]
    exact records

theorem Records.reopened (records : Records connData pending) (tsNsec : UInt64) :
    Records (Ksli.periodicReport tsNsec connData).1
      (openPending (Ksli.periodicReport tsNsec connData).2 pending) := by
  have outcome := records.periodicReport tsNsec
  cases report : (Ksli.periodicReport tsNsec connData).2 with
  | none =>
      rw [report] at outcome
      exact outcome
  | some emitted =>
      rw [report] at outcome
      exact outcome.2

theorem Records.emits (records : Records connData pending) {report : MsgEventData}
    (emitted : (Ksli.periodicReport tsNsec connData).2 = some report) : Summary report pending := by
  have outcome := records.periodicReport tsNsec
  rw [emitted] at outcome
  exact outcome.1

theorem Records.congr {other : ConnData} (records : Records connData pending)
    (sampleNum : other.sampleNum = connData.sampleNum) (recent : other.recent = connData.recent)
    (max : other.max = connData.max) (min : other.min = connData.min) : Records other pending where
  counted := by rw [sampleNum, records.counted]
  recent nonempty := by rw [recent, records.recent nonempty]
  max nonempty := by rw [max]; exact records.max nonempty
  min nonempty := by rw [min]; exact records.min nonempty
  bounded := by rw [max, min]; exact records.bounded

/-- The records once one more sample is in them. -/
structure Joins (before after : ConnData) (sample : RttCmd) : Prop where
  sampleNum : after.sampleNum = before.sampleNum + 1
  recent : after.recent = sample
  extremes : (before.sampleNum = 0 ∧ after.max = sample ∧ after.min = sample) ∨
    (before.sampleNum ≠ 0 ∧
      ((after.max = sample ∧ after.min = before.min ∧ before.max.rttNsec < sample.rttNsec) ∨
        (after.max = before.max ∧ after.min = sample ∧ sample.rttNsec < before.min.rttNsec) ∨
        (after.max = before.max ∧ after.min = before.min ∧
          before.min.rttNsec ≤ sample.rttNsec ∧ sample.rttNsec ≤ before.max.rttNsec)))

theorem takeSample_joins (conn : Conn) (finished : conn.csd.status = .sampFinished) :
    Joins conn.connData (takeSample conn).connData { conn.connData.current with rttNsec := conn.csd.rttTsNsec } := by
  simp only [takeSample, if_pos finished]
  by_cases first : conn.connData.sampleNum = 0
  · simp only [if_pos first]
    exact ⟨rfl, rfl, .inl ⟨first, rfl, rfl⟩⟩
  · simp only [if_neg first]
    by_cases larger : conn.csd.rttTsNsec > conn.connData.max.rttNsec
    · simp only [if_pos larger]
      exact ⟨rfl, rfl, .inr ⟨first, .inl ⟨rfl, rfl, larger⟩⟩⟩
    · simp only [if_neg larger]
      by_cases smaller : conn.csd.rttTsNsec < conn.connData.min.rttNsec
      · simp only [if_pos smaller]
        exact ⟨rfl, rfl, .inr ⟨first, .inr (.inl ⟨rfl, rfl, smaller⟩)⟩⟩
      · simp only [if_neg smaller]
        exact ⟨rfl, rfl, .inr ⟨first, .inr (.inr
          ⟨rfl, rfl, UInt64.not_lt.mp smaller, UInt64.not_lt.mp larger⟩)⟩⟩

theorem Records.join {after : ConnData} {measured : Measured} (records : Records connData pending)
    (joins : Joins connData after measured.sample) (few : (pending ++ [measured]).length < 2 ^ 32) :
    Records after (pending ++ [measured]) := by
  have counted : after.sampleNum.toNat = (pending ++ [measured]).length := by
    rw [joins.sampleNum, UInt32.toNat_add, records.counted, List.length_append] at *
    exact Nat.mod_eq_of_lt few
  have recent : ((pending ++ [measured]).map Measured.sample).getLast? = some after.recent := by
    rw [List.map_append, List.map_singleton, List.getLast?_concat, joins.recent]
  have new : measured.sample ∈ (pending ++ [measured]).map Measured.sample := by simp
  have kept {sample : RttCmd} (member : sample ∈ pending.map Measured.sample) :
      sample ∈ (pending ++ [measured]).map Measured.sample := by
    rw [List.map_append]
    exact List.mem_append_left _ member
  rcases joins.extremes with ⟨first, max, min⟩ | ⟨more, extremes⟩
  · have empty : pending = [] := by
      have none := records.counted
      rw [first] at none
      exact List.length_eq_zero_iff.mp none.symm
    subst empty
    refine ⟨counted, fun _ => recent, fun _ => max ▸ new, fun _ => min ▸ new, ?_⟩
    intro other member
    rw [List.nil_append, List.mem_singleton] at member
    rw [member, max, min]
    exact ⟨UInt64.le_refl _, UInt64.le_refl _⟩
  · have nonempty : pending ≠ [] := by
      rintro rfl
      exact more (UInt32.toNat_inj.mp records.counted)
    have oldMax := kept (records.max nonempty)
    have oldMin := kept (records.min nonempty)
    -- the extremes bound what was there, and each other
    have bounded := records.bounded
    obtain ⟨witness, inside⟩ := List.exists_mem_of_ne_nil pending nonempty
    have ordered : connData.min.rttNsec ≤ connData.max.rttNsec :=
      UInt64.le_trans (bounded witness inside).1 (bounded witness inside).2
    rcases extremes with ⟨max, min, larger⟩ | ⟨max, min, smaller⟩ | ⟨max, min, above, below⟩
    · refine ⟨counted, fun _ => recent, fun _ => max ▸ new, fun _ => min ▸ oldMin, ?_⟩
      intro other member
      rw [max, min]
      rcases List.mem_append.mp member with old | last
      · exact ⟨(bounded other old).1, UInt64.le_trans (bounded other old).2 (UInt64.le_of_lt larger)⟩
      · rw [List.mem_singleton.mp last]
        exact ⟨UInt64.le_trans ordered (UInt64.le_of_lt larger), UInt64.le_refl _⟩
    · refine ⟨counted, fun _ => recent, fun _ => max ▸ oldMax, fun _ => min ▸ new, ?_⟩
      intro other member
      rw [max, min]
      rcases List.mem_append.mp member with old | last
      · exact ⟨UInt64.le_trans (UInt64.le_of_lt smaller) (bounded other old).1, (bounded other old).2⟩
      · rw [List.mem_singleton.mp last]
        exact ⟨UInt64.le_refl _, UInt64.le_trans (UInt64.le_of_lt smaller) ordered⟩
    · refine ⟨counted, fun _ => recent, fun _ => max ▸ oldMax, fun _ => min ▸ oldMin, ?_⟩
      intro other member
      rw [max, min]
      rcases List.mem_append.mp member with old | last
      · exact bounded other old
      · rw [List.mem_singleton.mp last]
        exact ⟨above, below⟩

/-- The rest of a read leaves the records alone. -/
theorem Records.afterTake (records : Records conn.connData pending) (data : Text.Bytes) (readable : Bool) :
    Records (if conn.csd.status ≠ .sampInit then giveUp conn tsNsec
      else openSample conn tsNsec data readable).connData pending := by
  split
  case isTrue =>
      unfold giveUp
      split <;> exact records
  case isFalse =>
      simp only [openSample]
      split
      case isTrue => exact records.congr rfl rfl rfl rfl
      case isFalse =>
          simp only
          split <;> exact records.congr rfl rfl rfl rfl

/-- The time of a finished sample lies between `readings`. -/
def Conn.Timed (conn : Conn) (readings : UInt64 × UInt64) : Prop :=
  conn.csd.status = .sampFinished →
    readings.1 ≤ readings.2 ∧ conn.csd.rttTsNsec.toNat = readings.2.toNat - readings.1.toNat

theorem processRead_status (conn : Conn) (tsNsec : UInt64) (data : Text.Bytes) (readable : Bool) :
    (processRead conn tsNsec data readable).1.csd.status ≠ .sampFinished := by
  simp only [processRead]
  generalize (periodicReport tsNsec conn.connData).1 = connData
  have taken : (takeSample { conn with connData }).csd.status ≠ .sampFinished := by
    unfold takeSample
    split
    case isTrue => exact nofun
    case isFalse other => exact other
  split
  case isTrue =>
      unfold giveUp
      split
      case isTrue => exact nofun
      case isFalse => exact taken
  case isFalse =>
      simp only [openSample]
      split
      case isTrue => exact taken
      case isFalse => exact nofun

theorem Conn.Timed.step {readings : UInt64 × UInt64} (timed : conn.Timed readings) (event : Event) :
    (conn.step event).1.Timed ((conn.finishes event).getD readings) := by
  cases event with
  | read thread tsNsec data readable =>
      simp only [Conn.step, ksysRead]
      split
      case isTrue => exact timed
      case isFalse => exact fun finished => absurd finished (processRead_status conn tsNsec data readable)
  | write count =>
      simp only [Conn.step, ksysWrite, processWrite]
      split
      case isTrue => exact timed
      case isFalse =>
          split
          case isTrue => exact nofun
          case isFalse => exact timed
  | newDataSent skb =>
      simp only [Conn.step, tcpEventNewDataSent]
      split
      case isTrue => exact nofun
      case isFalse => exact timed
  | skbDelivered skb endTsNsec =>
      simp only [Conn.step, tcpRateSkbDelivered, Conn.finishes]
      by_cases sent : conn.csd.status = .sampSkbReady ∧ conn.csd.skb = skb
      · by_cases early : endTsNsec < conn.csd.startTsNsec
        · simp only [if_pos sent, if_pos early]
          exact nofun
        · simp only [sent.1, sent.2, early]
          have ordered := UInt64.not_lt.mp early
          exact fun _ => ⟨ordered, UInt64.toNat_sub_of_le _ _ ordered⟩
      · have unfinished : ¬ (conn.csd.status = .sampSkbReady ∧ conn.csd.skb = skb ∧
            ¬ endTsNsec < conn.csd.startTsNsec) := fun finishes => sent ⟨finishes.1, finishes.2.1⟩
        simp only [if_neg sent, if_neg unfinished]
        exact timed
  | recvmsg thread queued =>
      simp only [Conn.step, tcpRecvmsg]
      split
      case isTrue =>
          cases queued with
          | none => exact timed
          | some tstamp => exact timed
      case isFalse => exact timed

namespace Reported

structure Sound (reported : Reported) : Prop where
  records : Records reported.conn.connData reported.pending
  timed : reported.conn.Timed reported.readings
  exact : ∀ measured ∈ reported.samples, measured.Exact
  summaries : ∀ pair ∈ reported.reports, Summary pair.1 pair.2
  accounted : reported.samples = reported.reports.flatMap Prod.snd ++ reported.pending

theorem sound_start : Sound {} where
  records := records_empty rfl
  timed := nofun
  exact := by simp
  summaries := by simp
  accounted := rfl

variable {reported : Reported}

/-- Whatever a step reports and takes, no sample is lost. -/
theorem Sound.accounts (sound : reported.Sound) (event : Event) :
    (reported.step event).samples = (reported.step event).reports.flatMap Prod.snd ++ (reported.step event).pending := by
  simp only [step, sound.accounted]
  cases (reported.conn.step event).2 <;> simp [openPending]

/-- Only a read reports or takes a sample. -/
theorem Sound.silent (sound : reported.Sound) {event : Event}
    (connData : (reported.conn.step event).1.connData = reported.conn.connData)
    (report : (reported.conn.step event).2 = none) (taken : reported.conn.taken event = none) :
    (reported.step event).Sound where
  records := by
    simp only [step, connData, report, taken, openPending]
    simpa using sound.records
  timed := sound.timed.step event
  exact := by
    simp only [step, taken]
    simpa using sound.exact
  summaries := by
    simp only [step, report]
    simpa using sound.summaries
  accounted := sound.accounts event

theorem Sound.read_summaries (sound : reported.Sound) {thread : Nat} {tsNsec : UInt64} {data : Text.Bytes}
    {readable : Bool} (some : data.length ≠ 0) :
    ∀ pair ∈ (reported.step (.read thread tsNsec data readable)).reports, Summary pair.1 pair.2 := by
  have stepped : (reported.conn.step (.read thread tsNsec data readable)).2 =
      (periodicReport tsNsec reported.conn.connData).2 := by
    simp only [Conn.step, ksysRead, if_neg some, processRead]
  intro pair member
  simp only [step, stepped] at member
  rcases List.mem_append.mp member with earlier | emitted
  · exact sound.summaries pair earlier
  · cases report : (periodicReport tsNsec reported.conn.connData).2 with
    | none => simp [report] at emitted
    | some message =>
        rw [report, Option.toList_some, List.map_singleton, List.mem_singleton] at emitted
        rw [emitted]
        exact sound.records.emits report

theorem Sound.read (sound : reported.Sound) {thread : Nat} {tsNsec : UInt64} {data : Text.Bytes}
    {readable : Bool} (few : (reported.step (.read thread tsNsec data readable)).pending.length < 2 ^ 32) :
    (reported.step (.read thread tsNsec data readable)).Sound := by
  by_cases nothing : data.length = 0
  · apply sound.silent <;> simp [Conn.step, ksysRead, Conn.taken, nothing]
  · have timed := sound.timed.step (.read thread tsNsec data readable)
    have reopened := sound.records.reopened tsNsec
    have current := periodicReport_current tsNsec reported.conn.connData
    let conn : Conn := { reported.conn with connData := (periodicReport tsNsec reported.conn.connData).1 }
    have stepped : (reported.conn.step (.read thread tsNsec data readable)).2 =
        (periodicReport tsNsec reported.conn.connData).2 := by
      simp only [Conn.step, ksysRead, if_neg nothing, processRead]
    have summaries := @Sound.read_summaries reported sound thread tsNsec data readable nothing
    have accounted := sound.accounts (.read thread tsNsec data readable)
    by_cases finished : reported.conn.csd.status = .sampFinished
    · let measured : Measured :=
        { sample := { reported.conn.connData.current with rttNsec := reported.conn.csd.rttTsNsec }
          startTsNsec := reported.readings.1, endTsNsec := reported.readings.2 }
      have taken : reported.conn.taken (.read thread tsNsec data readable) = some measured.sample := by
        simp only [Conn.taken, ne_eq, nothing, not_false_eq_true, finished, and_self, if_true, measured]
      have joins : Joins conn.connData (takeSample conn).connData measured.sample := by
        have joined := takeSample_joins conn finished
        simp only [conn, current] at joined
        exact joined
      have grown : (reported.step (.read thread tsNsec data readable)).pending =
          openPending (periodicReport tsNsec reported.conn.connData).2 reported.pending ++ [measured] := by
        simp only [step, stepped, taken]
        rfl
      refine ⟨?_, timed, ?_, summaries, accounted⟩
      · have joined := reopened.join joins (grown ▸ few)
        rw [grown]
        simp only [step, Conn.step, ksysRead, if_neg nothing, processRead]
        exact joined.afterTake data readable
      · intro other member
        simp only [step, taken] at member
        rcases List.mem_append.mp member with earlier | last
        · exact sound.exact other earlier
        · rw [Option.toList_some, List.map_singleton, List.mem_singleton] at last
          rw [last]
          exact sound.timed finished
    · have taken : reported.conn.taken (.read thread tsNsec data readable) = none := by
        simp only [Conn.taken, finished, and_false, if_false]
      have kept : takeSample conn = conn := if_neg finished
      refine ⟨?_, timed, ?_, summaries, accounted⟩
      · simp only [step, taken, Conn.step, ksysRead, if_neg nothing, processRead, Option.toList_none,
          List.map_nil, List.append_nil]
        have records : Records (takeSample conn).connData
            (openPending (periodicReport tsNsec reported.conn.connData).2 reported.pending) := by
          rw [kept]
          exact reopened
        exact records.afterTake data readable
      · simp only [step, taken]
        simpa using sound.exact

theorem Sound.step (sound : reported.Sound) {event : Event}
    (few : (reported.step event).pending.length < 2 ^ 32) : (reported.step event).Sound := by
  cases event with
  | read thread tsNsec data readable => exact sound.read few
  | write count =>
      apply sound.silent _ rfl rfl
      simp only [Conn.step, ksysWrite, processWrite]
      split
      case isTrue => rfl
      case isFalse => split <;> rfl
  | newDataSent skb =>
      apply sound.silent _ rfl rfl
      simp only [Conn.step, tcpEventNewDataSent]
      split <;> rfl
  | skbDelivered skb endTsNsec =>
      apply sound.silent _ rfl rfl
      simp only [Conn.step, tcpRateSkbDelivered]
      split
      case isTrue => split <;> rfl
      case isFalse => rfl
  | recvmsg thread queued =>
      apply sound.silent _ rfl rfl
      simp only [Conn.step, tcpRecvmsg]
      split
      case isTrue => cases queued <;> rfl
      case isFalse => rfl

/-- Fewer than 2^32 samples between reports, all along a run. -/
def Few (events : List Event) : Prop :=
  ∀ earlier, earlier <+: events → (after earlier).pending.length < 2 ^ 32

theorem after_sound {events : List Event} (few : Few events) : (after events).Sound := by
  induction events using List.reverseRecOn with
  | nil => exact sound_start
  | append_singleton events event ih =>
      have before := ih fun earlier part => few earlier (part.trans (List.prefix_append events [event]))
      have now := few _ List.prefix_rfl
      rw [after_concat] at now ⊢
      exact before.step now

theorem reports_summarise {events : List Event} (few : Few events) :
    (∀ pair ∈ (after events).reports, Summary pair.1 pair.2) ∧
      (after events).samples = (after events).reports.flatMap Prod.snd ++ (after events).pending ∧
      ∀ measured ∈ (after events).samples, measured.Exact := by
  have sound := after_sound few
  exact ⟨sound.summaries, sound.accounted, sound.exact⟩

theorem pending_length (events : List Event) : (after events).pending.length ≤ events.length := by
  induction events using List.reverseRecOn with
  | nil => exact Nat.le_refl 0
  | append_singleton events event ih =>
      have one : ((after events).conn.taken event).toList.length ≤ 1 := by
        cases (after events).conn.taken event <;> simp
      have open_ : (openPending ((after events).conn.step event).2 (after events).pending).length ≤
          (after events).pending.length := by
        unfold openPending
        split <;> simp
      simp only [after_concat, step, List.length_append, List.length_map, List.length_singleton]
      omega

/-- One request answered and acknowledged, the read that takes its sample, and
one a period later. -/
def answered : List Event :=
  [.recvmsg 0 (some 10), .read 0 20 ping true, .write 7, .newDataSent 1, .skbDelivered 1 50,
    .recvmsg 0 (some 60), .read 0 70 ping true, .read 0 5000000070 ping true]

theorem reports_summarise_answered :
    (∀ pair ∈ (after answered).reports, Summary pair.1 pair.2) ∧
      (after answered).samples = (after answered).reports.flatMap Prod.snd ++ (after answered).pending ∧
      ∀ measured ∈ (after answered).samples, measured.Exact := by
  apply reports_summarise
  intro earlier part
  have short : answered.length = 8 := rfl
  have length := part.length_le
  have pending := pending_length earlier
  omega

end Reported

end GalaGopher.Ebpf.Ksli
