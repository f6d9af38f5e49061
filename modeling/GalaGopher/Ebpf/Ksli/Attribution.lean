import GalaGopher.Ebpf.Ksli
import Mathlib.Data.List.Induction
import Mathlib.Logic.Function.Basic

namespace GalaGopher.Ebpf.Ksli

open Text

/-- What a thread finds as it enters `tcp_recvmsg`. -/
structure Entry where
  queued : Option UInt64
  status : SampStatus
  startTsNsec : UInt64

/-- The request whose read opened a sample: its word, and its own start. -/
structure Opener where
  word : Option Bytes
  startTsNsec : UInt64

/-- A sample moved into `recent`, with the request that opened it and the time
its answer was acknowledged. -/
structure Attribution where
  sample : RttCmd
  opener : Option Opener
  ackedNsec : UInt64

/-- The sample carries the word of its request, and is timed from its start. -/
def Attribution.Own (attribution : Attribution) : Prop :=
  ∃ word startTsNsec, attribution.opener = some { word := some word, startTsNsec } ∧
    textOf attribution.sample.command = word ∧ startTsNsec ≤ attribution.ackedNsec ∧
    attribution.sample.rttNsec.toNat = attribution.ackedNsec.toNat - startTsNsec.toNat

/-- A connection with its past.  `entries` has the threads inside a read,
`latest` the one whose entry is the last, until a sample opens. -/
structure Traced where
  conn : Conn := {}
  entries : Nat → Option Entry := fun _ => none
  latest : Option Nat := none
  opener : Option Opener := none
  ackedNsec : UInt64 := 0
  taken : List Attribution := []

/-- Whether a read opens a sample. -/
def Conn.opens (conn : Conn) (data : Bytes) (readable : Bool) : Bool :=
  data.length ≠ 0 && (conn.csd.status = .sampInit || conn.csd.status = .sampFinished) &&
    (parseReq (.replicate maxCommandReqSize 0) data readable).1 = .redis

namespace Traced

def step (traced : Traced) (event : Event) : Traced :=
  let conn := (traced.conn.step event).1
  match event with
  | .read thread tsNsec data readable =>
      let entry := traced.entries thread
      let opened := traced.conn.opens data readable
      { conn
        entries := Function.update traced.entries thread none
        latest := if opened ∨ traced.latest = some thread then none else traced.latest
        opener :=
          if opened then
            some { word := commandWord data, startTsNsec := (entry.bind Entry.queued).getD tsNsec }
          else
            traced.opener
        ackedNsec := traced.ackedNsec
        taken := traced.taken ++ (traced.conn.taken event).toList.map fun sample =>
          { sample, opener := traced.opener, ackedNsec := traced.ackedNsec } }
  | .recvmsg thread queued =>
      { traced with
        conn
        entries := Function.update traced.entries thread
          (some { queued, status := traced.conn.csd.status, startTsNsec := traced.conn.csd.startTsNsec })
        latest := some thread }
  | .skbDelivered skb endTsNsec =>
      { traced with
        conn
        ackedNsec :=
          if traced.conn.csd.status = .sampSkbReady ∧ traced.conn.csd.skb = skb then endTsNsec
          else traced.ackedNsec }
  | .write _ | .newDataSent _ => { traced with conn }

def after (events : List Event) : Traced := events.foldl step {}

@[simp] theorem after_concat (events : List Event) (event : Event) :
    after (events ++ [event]) = (after events).step event := by
  simp [after]

/-- The word ends on a NUL in the buffer the read writes it to, which is clear
if the read takes a sample first. -/
def ClearAfter (traced : Traced) (data : Bytes) : Prop :=
  traced.conn.csd.status = .sampFinished ∨
    ∀ word, commandWord data = some word → traced.conn.connData.current.command.toList[word.length]? = some 0

/-- The read entered `tcp_recvmsg` with no sample under way, last of all, and
found a packet with a timestamp, or none queued and no start recorded. -/
def OwnStart (traced : Traced) (thread : Nat) : Prop :=
  match traced.entries thread with
  | none => traced.conn.csd.startTsNsec = 0
  | some entry =>
      traced.latest = some thread ∧ (entry.status = .sampInit ∨ entry.status = .sampFinished) ∧
        match entry.queued with
        | some tstamp => tstamp ≠ 0
        | none => entry.startTsNsec = 0

/-- A read that opens a sample finds nothing left of earlier messages. -/
def Clean (traced : Traced) : Event → Prop
  | .read thread _ data readable =>
      traced.conn.opens data readable → traced.ClearAfter data ∧ traced.OwnStart thread
  | _ => True

/-- The last entry, if no sample was under way then, left the start that is
there now. -/
def Recorded (traced : Traced) : Prop :=
  ∀ thread entry, traced.latest = some thread → traced.entries thread = some entry →
    entry.status = .sampInit ∨ entry.status = .sampFinished →
    (traced.conn.csd.status = .sampInit ∨ traced.conn.csd.status = .sampFinished) ∧
      traced.conn.csd.startTsNsec = entry.queued.getD entry.startTsNsec

/-- The sample under way is of its opener. -/
def Carried (traced : Traced) : Prop :=
  traced.conn.csd.status ≠ .sampInit → ∃ word startTsNsec,
    traced.opener = some { word := some word, startTsNsec } ∧
      textOf traced.conn.connData.current.command = word ∧
      (traced.conn.csd.status ≠ .sampFinished → traced.conn.csd.startTsNsec = startTsNsec) ∧
      (traced.conn.csd.status = .sampFinished → startTsNsec ≤ traced.ackedNsec ∧
        traced.conn.csd.rttTsNsec.toNat = traced.ackedNsec.toNat - startTsNsec.toNat)

end Traced

/-- No sample is under way. -/
def SampStatus.idle (status : SampStatus) : Prop := status = .sampInit ∨ status = .sampFinished

variable {conn : Conn} {tsNsec : UInt64} {data : Bytes} {readable : Bool}

/-- The buffer that a read of an idle connection parses into. -/
def Conn.parsedInto (conn : Conn) : CommandBuffer :=
  if conn.csd.status = .sampFinished then .replicate maxCommandReqSize 0 else conn.connData.current.command

theorem foldl_findState (bytes : Bytes) (left right : Recogniser) (same : left.findState = right.findState) :
    (bytes.foldl parseMsgToRedisCmd left).findState = (bytes.foldl parseMsgToRedisCmd right).findState := by
  induction bytes generalizing left right with
  | nil => exact same
  | cons byte rest ih =>
      apply ih
      obtain ⟨leftJ, leftCommand, findState⟩ := left
      obtain ⟨rightJ, rightCommand, rightState⟩ := right
      cases same
      cases findState <;> simp only [parseMsgToRedisCmd] <;> (repeat' split) <;> rfl

/-- Whether data is a request does not depend on the buffer. -/
theorem parseReq_protocol (command other : CommandBuffer) (data : Bytes) (readable : Bool) :
    (parseReq command data readable).1 = (parseReq other data readable).1 := by
  have identified : (identifyProtocolRedis (copiedMsg data) command).1 =
      (identifyProtocolRedis (copiedMsg data) other).1 := by
    have same := foldl_findState ((copiedMsg data).take (maxCommandReqSize - 2))
      ⟨0, command, .find0MsgStart⟩ ⟨0, other, .find0MsgStart⟩ rfl
    simp only [identifyProtocolRedis, same]
  unfold parseReq
  cases readable with
  | false => rfl
  | true => simp only [Bool.not_true, Bool.false_eq_true, if_false, identified]

theorem takeSample_idle (conn : Conn) (idle : conn.csd.status.idle) :
    (takeSample conn).connData.current.command = conn.parsedInto ∧
      (takeSample conn).csd = { conn.csd with status := .sampInit } := by
  rcases idle with init | finished
  · have other : conn.csd.status ≠ .sampFinished := by
      rw [init]
      exact nofun
    rw [takeSample, if_neg other, Conn.parsedInto, if_neg other, ← init]
    exact ⟨rfl, rfl⟩
  · rw [takeSample, if_pos finished, Conn.parsedInto, if_pos finished]
    exact ⟨rfl, rfl⟩

theorem processRead_idle (tsNsec : UInt64) (data : Bytes) (readable : Bool) (idle : conn.csd.status.idle) :
    let parsed := parseReq conn.parsedInto data readable
    (processRead conn tsNsec data readable).1.connData.current.command = parsed.2 ∧
      (processRead conn tsNsec data readable).1.csd =
        if parsed.1 = .unknown then
          { conn.csd with status := .sampInit }
        else
          { conn.csd with
            startTsNsec := if conn.csd.startTsNsec = 0 then tsNsec else conn.csd.startTsNsec
            status := .sampReadReady } := by
  intro parsed
  simp only [processRead]
  have current := periodicReport_current tsNsec conn.connData
  generalize (periodicReport tsNsec conn.connData).1 = connData at current ⊢
  obtain ⟨buffer, csd⟩ := takeSample_idle { conn with connData } idle
  have into : (Conn.mk connData conn.csd).parsedInto = conn.parsedInto := by
    simp only [Conn.parsedInto, current]
  rw [into] at buffer
  have status : (takeSample { conn with connData }).csd.status = .sampInit := by rw [csd]
  rw [if_neg (by simp [status])]
  simp only [openSample, buffer]
  by_cases unknown : parsed.1 = .unknown
  · rw [if_pos unknown, if_pos unknown]
    exact ⟨rfl, csd⟩
  · rw [if_neg unknown, if_neg unknown, csd]
    refine ⟨?_, rfl⟩
    split <;> rfl

theorem processRead_underWay (tsNsec : UInt64) (data : Bytes) (readable : Bool) (underWay : ¬ conn.csd.status.idle) :
    (processRead conn tsNsec data readable).1.connData.current = conn.connData.current ∧
      ((processRead conn tsNsec data readable).1.csd = conn.csd ∨
        (processRead conn tsNsec data readable).1.csd.status = .sampInit) := by
  simp only [processRead]
  have current := periodicReport_current tsNsec conn.connData
  generalize (periodicReport tsNsec conn.connData).1 = connData at current ⊢
  have kept : takeSample { conn with connData } = { conn with connData } :=
    if_neg fun finished => underWay (.inr finished)
  have started : conn.csd.status ≠ .sampInit := fun init => underWay (.inl init)
  rw [kept]
  simp only [ne_eq, started, not_false_eq_true, if_true, giveUp]
  split
  case isTrue => exact ⟨current, .inr rfl⟩
  case isFalse => exact ⟨current, .inl rfl⟩

/-- Nothing but a read or an entry touches an idle connection. -/
theorem step_idle (idle : conn.csd.status.idle) (event : Event)
    (other : ∀ thread queued, event ≠ .recvmsg thread queued)
    (notRead : ∀ thread tsNsec data readable, event ≠ .read thread tsNsec data readable) :
    (conn.step event).1 = conn := by
  have notReady (status : SampStatus) (busy : ¬ status.idle) : conn.csd.status ≠ status := by
    rintro rfl
    exact busy idle
  cases event with
  | read thread tsNsec data readable => exact absurd rfl (notRead thread tsNsec data readable)
  | recvmsg thread queued => exact absurd rfl (other thread queued)
  | write count =>
      simp only [Conn.step, ksysWrite, processWrite]
      rw [if_neg (notReady .sampReadReady (by rintro (absurd | absurd) <;> cases absurd)), ite_self]
  | newDataSent skb =>
      simp only [Conn.step, tcpEventNewDataSent]
      rw [if_neg (notReady .sampWriteReady (by rintro (absurd | absurd) <;> cases absurd))]
  | skbDelivered skb endTsNsec =>
      simp only [Conn.step, tcpRateSkbDelivered]
      rw [if_neg fun sent => notReady .sampSkbReady (by rintro (absurd | absurd) <;> cases absurd) sent.1]

namespace Traced

variable {traced : Traced} {thread : Nat}

theorem Recorded.read (recorded : traced.Recorded) :
    (traced.step (.read thread tsNsec data readable)).Recorded := by
  intro other entry latest inside status
  simp only [step] at latest inside ⊢
  by_cases gone : traced.conn.opens data readable = true ∨ traced.latest = some thread
  · rw [if_pos gone] at latest
    cases latest
  · rw [if_neg gone] at latest
    obtain ⟨closed, elsewhere⟩ := not_or.mp gone
    have differ : other ≠ thread := by
      rintro rfl
      exact elsewhere latest
    rw [Function.update_of_ne differ] at inside
    obtain ⟨idle, start⟩ := recorded other entry latest inside status
    simp only [Conn.step, ksysRead]
    by_cases nothing : data.length = 0
    · rw [if_pos nothing]
      exact ⟨idle, start⟩
    · rw [if_neg nothing]
      have csd := (processRead_idle tsNsec data readable idle).2
      have unknown : (parseReq traced.conn.parsedInto data readable).1 = .unknown := by
        have refused : (parseReq (.replicate maxCommandReqSize 0) data readable).1 ≠ .redis := by
          intro redis
          apply closed
          rcases idle with init | finished
          · simp [Conn.opens, nothing, init, redis]
          · simp [Conn.opens, nothing, finished, redis]
        rw [parseReq_protocol _ (.replicate maxCommandReqSize 0)]
        cases protocol : (parseReq (.replicate maxCommandReqSize 0) data readable).1 with
        | unknown => rfl
        | redis => exact absurd protocol refused
      rw [csd, if_pos unknown]
      exact ⟨.inl rfl, start⟩

theorem Recorded.recvmsg (queued : Option UInt64) : (traced.step (.recvmsg thread queued)).Recorded := by
  intro other entry latest inside status
  simp only [step, Option.some.injEq] at latest inside ⊢
  subst latest
  rw [Function.update_self, Option.some.injEq] at inside
  subst inside
  have idle : traced.conn.csd.status = .sampFinished ∨ traced.conn.csd.status = .sampInit := status.symm
  simp only [Conn.step, tcpRecvmsg, if_pos idle]
  cases queued with
  | none => exact ⟨status, rfl⟩
  | some tstamp => exact ⟨status, rfl⟩

theorem Recorded.step (recorded : traced.Recorded) (event : Event) : (traced.step event).Recorded := by
  -- the other hooks leave an idle connection as it is
  have untouched (other : ∀ thread queued, event ≠ .recvmsg thread queued)
      (notRead : ∀ thread tsNsec data readable, event ≠ .read thread tsNsec data readable) (thread : Nat)
      (entry : Entry) (latest : traced.latest = some thread) (inside : traced.entries thread = some entry)
      (status : entry.status = .sampInit ∨ entry.status = .sampFinished) :
      (traced.conn.step event).1.csd.status.idle ∧
        (traced.conn.step event).1.csd.startTsNsec = entry.queued.getD entry.startTsNsec := by
    obtain ⟨idle, start⟩ := recorded thread entry latest inside status
    rw [step_idle idle event other notRead]
    exact ⟨idle, start⟩
  cases event with
  | read thread tsNsec data readable => exact recorded.read
  | recvmsg thread queued => exact .recvmsg queued
  | write count => exact untouched nofun nofun
  | newDataSent skb => exact untouched nofun nofun
  | skbDelivered skb endTsNsec => exact untouched nofun nofun

theorem opens_idle (opens : traced.conn.opens data readable = true) :
    data.length ≠ 0 ∧ traced.conn.csd.status.idle ∧
      (parseReq traced.conn.parsedInto data readable).1 = .redis := by
  simp only [Conn.opens, Bool.and_eq_true, Bool.or_eq_true, decide_eq_true_eq] at opens
  refine ⟨opens.1.1, opens.1.2, ?_⟩
  rw [parseReq_protocol _ (.replicate maxCommandReqSize 0)]
  exact opens.2

/-- A read that opens a sample from a clean state starts it with its own word
and its own start. -/
theorem opened_carried (recorded : traced.Recorded) (opens : traced.conn.opens data readable = true)
    (clear : traced.ClearAfter data) (own : traced.OwnStart thread) :
    (traced.step (.read thread tsNsec data readable)).Carried := by
  obtain ⟨something, idle, redis⟩ := opens_idle opens
  obtain ⟨buffer, csd⟩ := processRead_idle tsNsec data readable idle
  obtain ⟨word, named, fits, nonzero, written⟩ := parseReq_redis redis
  have known : (parseReq traced.conn.parsedInto data readable).1 ≠ .unknown := by
    rw [redis]
    exact nofun
  have ended : traced.conn.parsedInto.toList[word.length]? = some 0 := by
    unfold Conn.parsedInto
    split
    case isTrue => simp [Vector.toList_replicate, fits]
    case isFalse other =>
        rcases clear with finished | clear
        · exact absurd finished other
        · exact clear word named
  have started : (if traced.conn.csd.startTsNsec = 0 then tsNsec else traced.conn.csd.startTsNsec) =
      ((traced.entries thread).bind Entry.queued).getD tsNsec := by
    unfold OwnStart at own
    cases entered : traced.entries thread with
    | none =>
        simp only [entered] at own
        rw [if_pos own]
        rfl
    | some entry =>
        simp only [entered] at own
        have recordedStart := (recorded thread entry own.1 entered own.2.1).2
        rw [Option.bind_some]
        cases queued : entry.queued with
        | none =>
            simp only [queued, Option.getD_none] at own recordedStart ⊢
            rw [if_pos (recordedStart.trans own.2.2)]
        | some tstamp =>
            simp only [queued, Option.getD_some] at own recordedStart ⊢
            rw [recordedStart, if_neg own.2.2]
  intro _
  simp only [step, Conn.step, ksysRead, if_neg something, opens, if_true, buffer, csd, if_neg known]
  refine ⟨word, ((traced.entries thread).bind Entry.queued).getD tsNsec, by rw [named], ?_, fun _ => started,
    nofun⟩
  rw [written]
  exact textOf_overwrite fits nonzero ended

/-- A read that opens none leaves the sample under way, or gives it up. -/
theorem Carried.unopened (carried : traced.Carried) (closed : traced.conn.opens data readable = false) :
    (traced.step (.read thread tsNsec data readable)).Carried := by
  intro started
  simp only [step, closed, Bool.false_eq_true, if_false, Conn.step, ksysRead] at started ⊢
  by_cases nothing : data.length = 0
  · simp only [if_pos nothing] at started ⊢
    exact carried started
  · simp only [if_neg nothing] at started ⊢
    by_cases idle : traced.conn.csd.status.idle
    · have csd := (processRead_idle tsNsec data readable idle).2
      have unknown : (parseReq traced.conn.parsedInto data readable).1 = .unknown := by
        cases protocol : (parseReq traced.conn.parsedInto data readable).1 with
        | unknown => rfl
        | redis =>
            rw [parseReq_protocol _ (.replicate maxCommandReqSize 0)] at protocol
            rcases idle with init | finished
            · simp [Conn.opens, nothing, init, protocol] at closed
            · simp [Conn.opens, nothing, finished, protocol] at closed
      rw [csd, if_pos unknown] at started
      exact absurd rfl started
    · obtain ⟨current, same | gone⟩ :=
        processRead_underWay tsNsec data readable idle
      · rw [same] at started ⊢
        rw [current]
        exact carried started
      · exact absurd gone started

theorem Carried.acked (carried : traced.Carried) (skb endTsNsec : UInt64) :
    (traced.step (.skbDelivered skb endTsNsec)).Carried := by
  intro started
  simp only [step, Conn.step, tcpRateSkbDelivered] at started ⊢
  by_cases sent : traced.conn.csd.status = .sampSkbReady ∧ traced.conn.csd.skb = skb
  · simp only [if_pos sent] at started ⊢
    by_cases early : endTsNsec < traced.conn.csd.startTsNsec
    · simp only [if_pos early] at started
      exact absurd rfl started
    · simp only [if_neg early]
      obtain ⟨word, startTsNsec, opener, text, start, _⟩ := carried (by rw [sent.1]; exact nofun)
      have own := start (by rw [sent.1]; exact nofun)
      have ordered := UInt64.not_lt.mp early
      rw [own] at ordered ⊢
      exact ⟨word, startTsNsec, opener, text, fun absurd => (absurd rfl).elim,
        fun _ => ⟨ordered, UInt64.toNat_sub_of_le _ _ ordered⟩⟩
  · simp only [if_neg sent] at started ⊢
    exact carried started

theorem Carried.step (carried : traced.Carried) (recorded : traced.Recorded) {event : Event}
    (clean : traced.Clean event) : (traced.step event).Carried := by
  cases event with
  | read thread tsNsec data readable =>
      cases opens : traced.conn.opens data readable with
      | true => exact opened_carried recorded opens (clean opens).1 (clean opens).2
      | false => exact carried.unopened opens
  | skbDelivered skb endTsNsec => exact carried.acked skb endTsNsec
  | write count =>
      intro started
      simp only [Traced.step, Conn.step, ksysWrite, processWrite] at started ⊢
      by_cases ready : ¬ count ≤ 0 ∧ traced.conn.csd.status = .sampReadReady
      · simp only [if_neg ready.1, if_pos ready.2]
        obtain ⟨word, startTsNsec, opener, text, start, _⟩ := carried (by rw [ready.2]; exact nofun)
        exact ⟨word, startTsNsec, opener, text, fun _ => start (by rw [ready.2]; exact nofun), nofun⟩
      · have same : (if count ≤ 0 then traced.conn else
            if traced.conn.csd.status = .sampReadReady then
              { traced.conn with csd := { traced.conn.csd with status := .sampWriteReady } }
            else traced.conn) = traced.conn := by
          split
          case isTrue => rfl
          case isFalse positive => exact if_neg fun status => ready ⟨positive, status⟩
        rw [same] at started ⊢
        exact carried started
  | newDataSent skb =>
      intro started
      simp only [Traced.step, Conn.step, tcpEventNewDataSent] at started ⊢
      by_cases ready : traced.conn.csd.status = .sampWriteReady
      · simp only [if_pos ready]
        obtain ⟨word, startTsNsec, opener, text, start, _⟩ := carried (by rw [ready]; exact nofun)
        exact ⟨word, startTsNsec, opener, text, fun _ => start (by rw [ready]; exact nofun), nofun⟩
      · simp only [if_neg ready] at started ⊢
        exact carried started
  | recvmsg thread queued =>
      intro started
      simp only [Traced.step, Conn.step, tcpRecvmsg] at started ⊢
      by_cases idle : traced.conn.csd.status = .sampFinished ∨ traced.conn.csd.status = .sampInit
      · simp only [if_pos idle] at started ⊢
        cases queued with
        | none => exact carried started
        | some tstamp =>
            -- a finished sample has its time already
            obtain ⟨word, startTsNsec, opener, text, _, finished⟩ := carried started
            have done := idle.resolve_right started
            exact ⟨word, startTsNsec, opener, text, fun other => absurd done other, finished⟩
      · simp only [if_neg idle] at started ⊢
        exact carried started

theorem Carried.taken_own (carried : traced.Carried) {event : Event} {sample : RttCmd}
    (taken : traced.conn.taken event = some sample) :
    Attribution.Own { sample, opener := traced.opener, ackedNsec := traced.ackedNsec } := by
  cases event with
  | read thread tsNsec data readable =>
      simp only [Conn.taken] at taken
      split at taken
      case isTrue finished =>
          cases taken
          obtain ⟨word, startTsNsec, opener, text, _, timed⟩ := carried (by rw [finished.2]; exact nofun)
          exact ⟨word, startTsNsec, opener, text, timed finished.2⟩
      case isFalse => cases taken
  | _ => cases taken

/-- Every step of a run is clean in the state it finds. -/
def RunsClean (events : List Event) : Prop :=
  ∀ earlier event, earlier ++ [event] <+: events → (after earlier).Clean event

structure Sound (traced : Traced) : Prop where
  recorded : traced.Recorded
  carried : traced.Carried
  own : ∀ attribution ∈ traced.taken, attribution.Own

theorem after_sound {events : List Event} (clean : RunsClean events) : (after events).Sound := by
  induction events using List.reverseRecOn with
  | nil => exact ⟨nofun, fun started => absurd rfl started, nofun⟩
  | append_singleton events event ih =>
      have before := ih fun earlier last part => clean earlier last (part.trans (List.prefix_append events [event]))
      have now := clean events event List.prefix_rfl
      rw [after_concat]
      refine ⟨before.recorded.step event, before.carried.step before.recorded now, ?_⟩
      intro attribution member
      cases event with
      | read thread tsNsec data readable =>
          simp only [step] at member
          rcases List.mem_append.mp member with earlier | last
          · exact before.own attribution earlier
          · obtain ⟨sample, taken, rfl⟩ := List.mem_map.mp last
            exact before.carried.taken_own (Option.mem_toList.mp taken)
      | _ => exact before.own attribution member

theorem samples_own {events : List Event} (clean : RunsClean events) :
    ∀ earlier, earlier <+: events → ∀ attribution ∈ (after earlier).taken, attribution.Own := by
  intro earlier part
  exact (after_sound fun first event inner => clean first event (inner.trans part)).own

theorem RunsClean.concat {events : List Event} (clean : RunsClean events) (event : Event)
    (last : (after events).Clean event) : RunsClean (events ++ [event]) := by
  intro earlier final part
  rcases List.prefix_concat_iff.mp part with whole | inner
  · obtain ⟨rfl, same⟩ := List.append_inj' whole rfl
    cases same
    exact last
  · exact clean earlier final inner

theorem runsClean_nil : RunsClean [] := by
  intro earlier event part
  simp at part

theorem ping_opens_clean : (after [.recvmsg 0 (some 10)]).Clean (.read 0 20 ping true) := by
  intro _
  refine ⟨.inr ?_, rfl, .inl rfl, by decide⟩
  intro word named
  have spelled : commandWord ping = some [80, 73, 78, 71] := by decide +kernel
  rw [spelled] at named
  cases named
  decide +kernel

theorem samples_own_ping : Attribution.Own
    { sample := { command := overwrite (.replicate maxCommandReqSize 0) 0 [80, 73, 78, 71], rttNsec := 40 }
      opener := some { word := some [80, 73, 78, 71], startTsNsec := 10 }, ackedNsec := 50 } := by
  have closed : (after [.recvmsg 0 (some 10), .read 0 20 ping true, .write 7, .newDataSent 1,
      .skbDelivered 1 50]).conn.opens [0] true = false := by
    decide +kernel
  have requested := (runsClean_nil.concat (.recvmsg 0 (some 10)) trivial).concat _ ping_opens_clean
  have answered := (requested.concat (.write 7) trivial).concat (.newDataSent 1) trivial
  have acked := answered.concat (.skbDelivered 1 50) trivial
  have last := acked.concat (.read 0 70 [0] true) fun opens => by
    simp only [List.nil_append, List.cons_append, closed] at opens
    cases opens
  exact samples_own last _ List.prefix_rfl _ (List.mem_singleton_self _)

/-- `*4\r\n$7\r\nEVAL_RO\r\n` -/
def evalRo : Bytes := [42, 52, 13, 10, 36, 55, 13, 10, 69, 86, 65, 76, 95, 82, 79, 13, 10]

/-- `*2\r\n$3\r\nGET\r\n` -/
def get : Bytes := [42, 50, 13, 10, 36, 51, 13, 10, 71, 69, 84, 13, 10]

def Event.time? : Event → Option UInt64
  | .read _ tsNsec _ _ => some tsNsec
  | .skbDelivered _ endTsNsec => some endTsNsec
  | _ => none

/-- The clock never goes back. -/
def Clocked (events : List Event) : Prop := (events.filterMap Event.time?).Pairwise (· ≤ ·)

theorem leftover_letters : ¬ ∀ events, Clocked events → ∀ attribution ∈ (after events).taken, attribution.Own := by
  intro own
  let events : List Event :=
    [.recvmsg 0 (some 10), .read 0 20 evalRo true, .recvmsg 0 (some 30), .read 0 40 get true, .write 5,
      .newDataSent 1, .skbDelivered 1 90, .recvmsg 0 (some 95), .read 0 100 get true]
  have clocked : Clocked events := by
    unfold Clocked
    decide
  let wrong : Attribution :=
    { sample := { command := overwrite (.replicate maxCommandReqSize 0) 0 [71, 69, 84, 76], rttNsec := 60 }
      opener := some { word := some [71, 69, 84], startTsNsec := 30 }, ackedNsec := 90 }
  have taken : wrong ∈ (after events).taken := by
    have all : (after events).taken = [wrong] := by rfl
    rw [all]
    exact List.mem_singleton_self wrong
  obtain ⟨word, startTsNsec, opener, text, _⟩ := own events clocked wrong taken
  cases opener
  exact absurd text (by decide +kernel)

end Traced

end GalaGopher.Ebpf.Ksli
