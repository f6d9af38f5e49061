import GalaGopher.Data.LeastSample
import GalaGopher.Ebpf.TcpProbe.Conservation
import Mathlib.Logic.Function.Basic
import Mathlib.Order.Nat

namespace GalaGopher.Ebpf

open Data

/-- The fields kept by `min_zero`. -/
inductive MinField where
  | sndWnd
  | rcvWnd
  | sndSsthresh
  | rcvSsthresh
  | sndCwnd
  | rcvSpace
  | deliveryRate
  | pacingRate
  | maxPacingRate
deriving DecidableEq

def TcpState.least (info : TcpState) : MinField → Nat
  | .sndWnd => info.sndWnd.toNat
  | .rcvWnd => info.rcvWnd.toNat
  | .sndSsthresh => info.sndSsthresh.toNat
  | .rcvSsthresh => info.rcvSsthresh.toNat
  | .sndCwnd => info.sndCwnd.toNat
  | .rcvSpace => info.rcvSpace.toNat
  | .deliveryRate => info.deliveryRate.toNat
  | .pacingRate => info.pacingRate.toNat
  | .maxPacingRate => info.maxPacingRate.toNat

/-- The rate of a socket, unless its bits are all set, which stands for none. -/
def PacingRate.limit : PacingRate → Option Nat
  | .narrow rate => if rate = 0xFFFFFFFF then none else some rate.toNat
  | .wide rate => if rate = 0xFFFFFFFFFFFFFFFF then none else some rate.toNat

/-- What is sampled of a socket. A pacing rate without a limit is no sample. -/
def MinField.sample (field : MinField) (sk : Sock) : Option Nat :=
  match field with
  | .sndWnd => some sk.sndWnd.toNat
  | .rcvWnd => some sk.rcvWnd.toNat
  | .sndSsthresh => some sk.sndSsthresh.toNat
  | .rcvSsthresh => some sk.rcvSsthresh.toNat
  | .sndCwnd => some sk.sndCwnd.toNat
  | .rcvSpace => some sk.rcvqSpaceSpace.toNat
  | .deliveryRate =>
      if sk.rateDelivered ≠ 0 ∧ sk.rateIntervalUs ≠ 0 then
        some (sk.rateDelivered.toUInt64 * sk.mssCache.toUInt64 * usecPerSec).toNat
      else
        some 0
  | .pacingRate => sk.skPacingRate.limit
  | .maxPacingRate => sk.skMaxPacingRate.limit

/-- What `min_zero` gets of a sampled value.  A pacing rate is cut to 32 bits
and then dropped if all of these are set. -/
def MinField.stored (field : MinField) (value : Nat) : Option Nat :=
  match field with
  | .pacingRate | .maxPacingRate => if value % 2 ^ 32 = 2 ^ 32 - 1 then none else some (value % 2 ^ 32)
  | _ => some value

def MinField.kept (field : MinField) (sk : Sock) : Option Nat := (field.sample sk).bind field.stored

theorem minZero_toNat (x y : UInt32) : (minZero x y).toNat = lower x.toNat y.toNat := by
  rw [minZero, lower, apply_ite UInt32.toNat, apply_ite UInt32.toNat]
  simp only [← UInt32.toNat_inj, UInt32.lt_iff_toNat_lt]
  rfl

theorem minZero64_toNat (x y : UInt64) : (minZero64 x y).toNat = lower x.toNat y.toNat := by
  rw [minZero64, lower, apply_ite UInt64.toNat, apply_ite UInt64.toNat]
  simp only [← UInt64.toNat_inj, UInt64.lt_iff_toNat_lt]
  rfl

/-- A sample, if there is one, goes into the field by `min_zero`. -/
def taken (sampled : Option Nat) (held : Nat) : Nat := sampled.elim held (lower held)

/-- A rate in `tmp` goes into its field, unless it is `~0U`. -/
theorem PacingRate.tmp_taken (rate : PacingRate) (held : UInt32) :
    (if rate.tmp ≠ unlimited then minZero held rate.tmp else held).toNat =
      taken (rate.limit.bind (MinField.stored .pacingRate)) held.toNat := by
  have limit : rate.limit.bind (MinField.stored .pacingRate) =
      if rate.tmp ≠ unlimited then some rate.tmp.toNat else none := by
    cases rate with
    | narrow rate =>
        by_cases none : rate = 0xFFFFFFFF
        · simp [PacingRate.limit, PacingRate.tmp, unlimited, none]
        · have value : rate.toNat ≠ 2 ^ 32 - 1 := fun same => none (UInt32.toNat_inj.mp same)
          have small : rate.toNat % 2 ^ 32 = rate.toNat := Nat.mod_eq_of_lt rate.toNat_lt
          simp only [PacingRate.limit, PacingRate.tmp, unlimited, none, if_false, ne_eq, not_false_eq_true, if_true,
            Option.bind_some, MinField.stored, small, value]
    | wide rate =>
        have cut : rate.toUInt32 = unlimited ↔ rate.toNat % 2 ^ 32 = 2 ^ 32 - 1 := by
          rw [← UInt32.toNat_inj, UInt64.toNat_toUInt32]
          rfl
        by_cases none : rate = 0xFFFFFFFFFFFFFFFF
        · simp [PacingRate.limit, PacingRate.tmp, unlimited, none]
        · simp only [PacingRate.limit, PacingRate.tmp, none, if_false, Option.bind_some, MinField.stored, ne_eq, cut,
            UInt64.toNat_toUInt32]
          by_cases all : rate.toNat % 2 ^ 32 = 2 ^ 32 - 1
          · simp only [all, not_true_eq_false, if_true, if_false]
          · simp only [all, not_false_eq_true, if_true, if_false]
  rw [limit]
  split
  case isTrue => exact minZero_toNat _ _
  case isFalse => rfl

theorem TcpStatistics.least_read (sk : Sock) (now : UInt64) (data : TcpStatistics) (field : MinField) :
    (data.read sk now).info.least field = taken (field.kept sk) (data.info.least field) := by
  cases field with
  | sndWnd => exact minZero_toNat _ _
  | rcvWnd => exact minZero_toNat _ _
  | sndSsthresh => exact minZero_toNat _ _
  | rcvSsthresh => exact minZero_toNat _ _
  | sndCwnd => exact minZero_toNat _ _
  | rcvSpace => exact minZero_toNat _ _
  | deliveryRate =>
      refine (minZero64_toNat _ _).trans ?_
      simp only [MinField.kept, MinField.sample]
      split <;> rfl
  | pacingRate => exact PacingRate.tmp_taken _ _
  | maxPacingRate => exact PacingRate.tmp_taken _ _

theorem TcpStatistics.least_add (data : TcpStatistics) (counter : Counter) (delta : UInt64) (field : MinField) :
    (data.add counter delta).info.least field = data.info.least field := by
  cases counter <;> cases field <;> rfl

def TcpEvent.reading : TcpEvent → Option Sock
  | .tcpSendmsg context _ | .tcpRecvmsg context => some context.sk
  | _ => none

namespace TcpProbe

variable {host : ByteOrder} {probe : TcpProbe} {event : TcpEvent} {link : TcpLink} {field : MinField}

/-- An event leaves the links, or changes the entry that its hook gets, as far as
samples go by what it reads. -/
inductive Effect (host : ByteOrder) (probe : TcpProbe) (event : TcpEvent) : Prop where
  | silent (same : SameLinks probe (probe.step host event)) (entry : probe.entryOf host event = none)
  | sampled (own : TcpProbe) (context : HookContext) (change : TcpStatistics → TcpStatistics)
      (same : SameLinks probe own) (step : probe.step host event = own.withMetrics host context change)
      (entry : probe.entryOf host event = own.entry host context)
      (takes : ∀ data field,
        (change data).info.least field = taken (event.reading.bind field.kept) (data.info.least field))

theorem effect_countEvent (context : HookContext) (counter : Counter) (delta : UInt64)
    (step : probe.step host event = probe.countEvent host context counter delta)
    (entry : probe.entryOf host event = probe.entry host context) (unread : event.reading = none) :
    Effect host probe event := by
  refine .sampled probe context (·.add counter delta) (.refl probe) step entry fun data field => ?_
  rw [TcpStatistics.least_add, unread]
  rfl

/-- A return probe that finds its call, or does not. -/
theorem effect_stashed (counter : Counter) (stashed : Option HookContext)
    (step : probe.step host event =
      match stashed with
      | none => probe
      | some context => probe.countEvent host context counter 1)
    (entry : probe.entryOf host event = stashed.bind (probe.entry host)) (unread : event.reading = none) :
    Effect host probe event := by
  cases stashed with
  | none => exact .silent (by rw [step]; exact .refl probe) entry
  | some context => exact effect_countEvent context counter 1 step entry unread

theorem step_effect (host : ByteOrder) (probe : TcpProbe) (event : TcpEvent) : Effect host probe event := by
  have stays (same : probe.step host event = probe) (entry : probe.entryOf host event = none) :
      Effect host probe event := .silent (by rw [same]; exact .refl probe) entry
  cases event with
  | tcpSetState context newState => exact .silent (tcpSetState_links ..) rfl
  | tcpDestroySock skPtr => exact .silent ⟨rfl, rfl⟩ rfl
  | tcpSendmsg context size =>
      refine .sampled (probe.ownSock context) context (fun data => (data.add .tx size).read context.sk context.readAt)
        (ownSock_links probe context) rfl rfl fun data field => ?_
      rw [TcpStatistics.least_read, TcpStatistics.least_add]
      rfl
  | tcpRecvmsg context =>
      refine .sampled (probe.ownSock context) context (·.read context.sk context.readAt)
        (ownSock_links probe context) rfl rfl fun data field => ?_
      rw [TcpStatistics.least_read]
      rfl
  | tcpAddBacklog discard stashed =>
      cases discard with
      | false => exact stays (by cases stashed <;> rfl) rfl
      | true => exact effect_stashed .backlogDrops stashed (by cases stashed <;> rfl) rfl rfl
  | tcpFilter discard stashed =>
      cases discard with
      | false => exact stays (by cases stashed <;> rfl) rfl
      | true => exact effect_stashed .filterDrops stashed (by cases stashed <;> rfl) rfl rfl
  | tcpWriteErr context => exact effect_countEvent context .tmout 1 rfl rfl rfl
  | tcpCleanupRbuf context copied =>
      by_cases none : copied ≤ 0
      · exact stays (if_pos none) (if_pos none)
      · exact effect_countEvent context .rx _ (if_neg none) (if_neg none) rfl
  | sockExceedBufLimit context => exact effect_countEvent context .sndbufLimit 1 rfl rfl rfl
  | tcpSendReset context => exact effect_countEvent context .sendRsts 1 rfl rfl rfl
  | tcpReceiveReset context => exact effect_countEvent context .receiveRsts 1 rfl rfl rfl
  | tcpRetransmitSkb context segs => exact effect_countEvent context .totalRetrans _ rfl rfl rfl
  | tcpDone context =>
      by_cases opening : context.sk.skState.toUInt16 = tcpSynSent ∨ context.sk.skState.toUInt16 = tcpSynRecv
      · exact effect_countEvent context .attemptFails 1 (if_pos opening) (if_pos opening) rfl
      · exact stays (if_neg opening) (if_neg opening)
  | tcpTryRmemSchedule ret stashed =>
      by_cases succeeded : ret = 0
      · exact stays (by cases stashed <;> simp [step, tcpTryRmemSchedule, succeeded]) (if_pos succeeded)
      · refine effect_stashed .rmemScheduls stashed ?_ (if_neg succeeded) rfl
        cases stashed with
        | none => rfl
        | some context => simp [step, tcpTryRmemSchedule, succeeded, countEvent_nonnull]
  | tcpCheckOom ret stashed =>
      cases ret with
      | false => exact stays (by cases stashed <;> rfl) rfl
      | true =>
          refine effect_stashed .tcpOom stashed ?_ rfl rfl
          cases stashed with
          | none => rfl
          | some context => simp [step, tcpCheckOom, countEvent_nonnull]
  | setArgs args => exact .silent ⟨rfl, rfl⟩ rfl
  | setTasks tasks => exact .silent ⟨rfl, rfl⟩ rfl
  | setFds fdMap => exact .silent ⟨rfl, rfl⟩ rfl

/-- Reports only ever join those on the buffer. -/
theorem output_prefix_step (host : ByteOrder) (probe : TcpProbe) (event : TcpEvent) :
    probe.output <+: (probe.step host event).output := by
  cases probe.step_effect host event with
  | silent same entry =>
      exact ⟨[], (List.append_nil _).trans same.output.symm⟩
  | sampled own context change same stepped entry takes =>
      have got : (own.getTcpMetrics host context).1.output = probe.output := by
        rw [getTcpMetrics_output, same.output]
      rw [stepped]
      cases found : (own.getTcpMetrics host context).2 with
      | none =>
          rw [withMetrics_missed found]
          exact ⟨[], (List.append_nil _).trans got.symm⟩
      | some pair =>
          rw [withMetrics_found found, reportOn, got]
          exact List.prefix_append _ _

theorem reportOn_body {target : TcpLink} {metrics : TcpMetrics} (present : probe.linkMap.lookup target = some metrics)
    (outcome : TcpMetrics × Option TcpMetrics) (link : TcpLink) :
    (probe.reportOn target outcome).body link =
      if link = target then (outcome.1.data.health, outcome.1.data.info) else probe.body link := by
  simp only [body, reportOn, BoundedMap.lookup_modify]
  by_cases same : link = target
  · rw [if_pos same, if_pos same, present]
    rfl
  · rw [if_neg same, if_neg same]

end TcpProbe

-- A run beside the sockets that were sampled for each link since its last
-- report.

structure Watched where
  probe : TcpProbe
  read : TcpLink → List Sock
  /-- The reports, each with the sockets sampled in its period. -/
  reports : List (TcpMetrics × List Sock)

namespace Watched

def start (probe : TcpProbe) : Watched := ⟨probe, fun _ => [], []⟩

/-- The sockets sampled once an event has been handled. -/
def note (host : ByteOrder) (watched : Watched) (event : TcpEvent) : TcpLink → List Sock :=
  match watched.probe.entryOf host event, event.reading with
  | some link, some sk => Function.update watched.read link (watched.read link ++ [sk])
  | _, _ => watched.read

def step (host : ByteOrder) (watched : Watched) (event : TcpEvent) : Watched :=
  let probe := watched.probe.step host event
  let read := watched.note host event
  let sent := probe.output.drop watched.probe.output.length
  { probe
    read := fun link => if sent.any fun metrics => metrics.link = link then [] else read link
    reports := watched.reports ++ sent.map fun metrics => (metrics, read metrics.link) }

def samples (field : MinField) (read : List Sock) : List Nat := read.filterMap field.sample

/-- The samples as `min_zero` gets them. -/
def kept (field : MinField) (read : List Sock) : List Nat := read.filterMap field.kept

/-- Entries and reports have what `min_zero` makes of the samples. -/
structure Sampled (watched : Watched) : Prop where
  keyed : watched.probe.Keyed
  held : ∀ link field,
    (watched.probe.body link).2.least field = (kept field (watched.read link)).foldl lower ⊥
  reports : ∀ closed ∈ watched.reports, ∀ field,
    closed.1.data.info.least field = (kept field closed.2).foldl lower ⊥

variable {host : ByteOrder} {watched : Watched} {event : TcpEvent} {link : TcpLink} {field : MinField}

theorem kept_eq (field : MinField) (read : List Sock) : kept field read = (samples field read).filterMap field.stored := by
  rw [kept, samples, List.filterMap_filterMap]
  rfl

theorem kept_of_uncut {read : List Sock} (uncut : ∀ value ∈ samples field read, field.stored value = some value) :
    kept field read = samples field read := by
  rw [kept_eq, List.filterMap_congr uncut, List.filterMap_some]

theorem note_none (entry : watched.probe.entryOf host event = none) : watched.note host event = watched.read := by
  simp only [note, entry]

theorem note_other (entry : watched.probe.entryOf host event = some link) {other : TcpLink} (different : other ≠ link) :
    watched.note host event other = watched.read other := by
  simp only [note, entry]
  cases event.reading with
  | none => rfl
  | some sk => exact Function.update_of_ne different _ _

theorem foldl_note (entry : watched.probe.entryOf host event = some link) (field : MinField) :
    (kept field (watched.note host event link)).foldl lower ⊥ =
      taken (event.reading.bind field.kept) ((kept field (watched.read link)).foldl lower ⊥) := by
  simp only [note, entry]
  cases event.reading with
  | none => rfl
  | some sk =>
      simp only [Function.update_self, kept, List.filterMap_append, List.foldl_append, Option.bind_some]
      cases stored : field.kept sk with
      | none => simp [stored, taken]
      | some value => simp [stored, taken]

/-- Nothing is sent, and only the entry of the link that is sampled may change. -/
theorem Sampled.unsent (sampled : Sampled watched) (keyed : (watched.probe.step host event).Keyed)
    (output : (watched.probe.step host event).output = watched.probe.output)
    (held : ∀ link field, ((watched.probe.step host event).body link).2.least field =
      (kept field (watched.note host event link)).foldl lower ⊥) : Sampled (watched.step host event) := by
  have sent : (watched.probe.step host event).output.drop watched.probe.output.length = [] := by
    rw [output, List.drop_length]
  refine ⟨keyed, fun link field => ?_, ?_⟩
  · simp only [step, sent, List.any_nil, Bool.false_eq_true, if_false]
    exact held link field
  · simp only [step, sent, List.map_nil, List.append_nil]
    exact sampled.reports

/-- The entry goes out with the samples of its period, and starts again. -/
theorem Sampled.sent (sampled : Sampled watched) (keyed : (watched.probe.step host event).Keyed) {sent : TcpMetrics}
    (output : (watched.probe.step host event).output = watched.probe.output ++ [sent])
    (values : ∀ field, sent.data.info.least field = (kept field (watched.note host event sent.link)).foldl lower ⊥)
    (cleared : ∀ field, ((watched.probe.step host event).body sent.link).2.least field = 0)
    (others : ∀ link field, link ≠ sent.link → ((watched.probe.step host event).body link).2.least field =
      (kept field (watched.note host event link)).foldl lower ⊥) : Sampled (watched.step host event) := by
  have last : (watched.probe.step host event).output.drop watched.probe.output.length = [sent] := by
    rw [output, List.drop_left]
  refine ⟨keyed, fun link field => ?_, ?_⟩
  · simp only [step, last, List.any_cons, List.any_nil, Bool.or_false, decide_eq_true_eq]
    by_cases same : sent.link = link
    · rw [if_pos same, ← same]
      exact cleared field
    · rw [if_neg same]
      exact others link field (Ne.symm same)
  · simp only [step, last, List.map_singleton]
    intro closed member field
    rcases List.mem_append.mp member with earlier | new
    · exact sampled.reports closed earlier field
    · rw [List.mem_singleton.mp new]
      exact values field

theorem body_of_links {before after : TcpProbe} (same : TcpProbe.SameLinks before after) (link : TcpLink) :
    after.body link = before.body link := by
  rw [TcpProbe.body, same.linkMap]
  rfl

/-- A hook that gets an entry changes it, and reports it or not. -/
theorem Sampled.changed (sampled : Sampled watched) (keyed : (watched.probe.step host event).Keyed) {got : TcpProbe}
    {metrics : TcpMetrics} (present : got.linkMap.lookup metrics.link = some metrics)
    (bodies : ∀ link, got.body link = watched.probe.body link) (output : got.output = watched.probe.output)
    (entry : watched.probe.entryOf host event = some metrics.link) {change : TcpStatistics → TcpStatistics}
    (takes : ∀ field, (change metrics.data).info.least field =
      taken (event.reading.bind field.kept) (metrics.data.info.least field)) (newEntry : Bool) (now period : UInt64)
    (step : watched.probe.step host event = got.reportOn metrics.link
      (TcpProbe.report { metrics with data := change metrics.data } newEntry now period)) :
    Sampled (watched.step host event) := by
  have before (field : MinField) :
      metrics.data.info.least field = (kept field (watched.read metrics.link)).foldl lower ⊥ := by
    rw [← sampled.held, ← bodies, TcpProbe.body, present]
    rfl
  have after (field : MinField) : (change metrics.data).info.least field =
      (kept field (watched.note host event metrics.link)).foldl lower ⊥ := by
    rw [takes, before, foldl_note entry]
  have others {link : TcpLink} (different : link ≠ metrics.link) (field : MinField) :
      (got.body link).2.least field = (kept field (watched.note host event link)).foldl lower ⊥ := by
    rw [bodies, note_other entry different]
    exact sampled.held link field
  rcases TcpProbe.report_cases { metrics with data := change metrics.data } newEntry now period with quiet | ⟨ts, sent⟩
  · rw [quiet] at step
    refine sampled.unsent keyed ?_ fun link field => ?_
    · rw [step, TcpProbe.reportOn, output, Option.toList_none, List.append_nil]
    · rw [step, TcpProbe.reportOn_body present]
      split
      case isTrue same => exact same ▸ after field
      case isFalse different => exact others different field
  · rw [sent] at step
    refine @Sampled.sent _ _ _ sampled keyed { metrics with ts, data := change metrics.data } ?_ after ?_ ?_
    · rw [step, TcpProbe.reportOn, output, Option.toList_some]
    · intro field
      rw [step, TcpProbe.reportOn_body present, if_pos rfl]
      cases field <;> rfl
    · intro link field different
      rw [step, TcpProbe.reportOn_body present, if_neg different]
      exact others different field

theorem Sampled.step (sampled : Sampled watched) (host : ByteOrder) (event : TcpEvent) :
    Sampled (watched.step host event) := by
  have keyed := (TcpProbe.step_conserves host {} .rx sampled.keyed event).keyed
  cases watched.probe.step_effect host event with
  | silent same entry =>
      refine sampled.unsent keyed same.output fun link field => ?_
      rw [note_none entry, body_of_links same]
      exact sampled.held link field
  | sampled own context change same stepped entry takes =>
      have ownKeyed := same.keyed sampled.keyed
      have gets : TcpProbe.Gets own (own.getTcpMetrics host context).1 := TcpProbe.getTcpMetrics_gets ownKeyed
      have bodies (link : TcpLink) : (own.getTcpMetrics host context).1.body link = watched.probe.body link := by
        rw [TcpProbe.getTcpMetrics_body, body_of_links same]
      have output := gets.output.trans same.output
      cases found : (own.getTcpMetrics host context).2 with
      | none =>
          have absent : watched.probe.entryOf host event = none := by
            rw [entry, TcpProbe.entry, found]
            rfl
          have missed := stepped.trans (TcpProbe.withMetrics_missed found change)
          refine sampled.unsent keyed (by rw [missed, output]) fun link field => ?_
          rw [missed, bodies, note_none absent]
          exact sampled.held link field
      | some pair =>
          obtain ⟨metrics, newEntry⟩ := pair
          have present := TcpProbe.getTcpMetrics_found ownKeyed found
          have ours : watched.probe.entryOf host event = some metrics.link := by
            rw [entry, TcpProbe.entry, found]
            rfl
          exact sampled.changed keyed present bodies output ours (takes metrics.data) newEntry _ _
            (stepped.trans (TcpProbe.withMetrics_found found change))

def run (host : ByteOrder) (probe : TcpProbe) (events : List TcpEvent) : Watched :=
  events.foldl (step host) (start probe)

theorem foldl_reports (host : ByteOrder) (events : List TcpEvent)
    (all : watched.reports.map Prod.fst = watched.probe.output) :
    let after := events.foldl (Watched.step host) watched
    after.reports.map Prod.fst = after.probe.output ∧ after.probe = events.foldl (TcpProbe.step host) watched.probe := by
  induction events generalizing watched with
  | nil => exact ⟨all, rfl⟩
  | cons event events ih =>
      obtain ⟨sent, output⟩ := TcpProbe.output_prefix_step host watched.probe event
      refine ih  ?_
      have fresh : (watched.probe.step host event).output.drop watched.probe.output.length = sent := by
        rw [← output, List.drop_left]
      have own : sent.map (Prod.fst ∘ fun metrics => (metrics, watched.note host event metrics.link)) = sent :=
        List.map_id' sent
      simp only [Watched.step, fresh, List.map_append, List.map_map]
      rw [own, all, output]

theorem foldl_sampled (host : ByteOrder) (events : List TcpEvent) (sampled : Sampled watched) :
    Sampled (events.foldl (Watched.step host) watched) := by
  induction events generalizing watched with
  | nil => exact sampled
  | cons event events ih => exact ih (sampled.step host event)

end Watched

namespace TcpProbe

/-- The probe with its maps as the loader leaves them. -/
def loaded (sockMap : BoundedMap SockPtr TcpSockInfo tcpTupleMax) (fdMap : BoundedMap UInt32 TcpFdInfo tcpFdMax)
    (args : Option TcpArgs) (tasks : UInt32 → Bool) : TcpProbe :=
  { sockMap, linkMap := .empty, fdMap, args, tasks, output := [] }

theorem sampled_loaded (sockMap : BoundedMap SockPtr TcpSockInfo tcpTupleMax)
    (fdMap : BoundedMap UInt32 TcpFdInfo tcpFdMax) (args : Option TcpArgs) (tasks : UInt32 → Bool) :
    Watched.Sampled (.start (loaded sockMap fdMap args tasks)) where
  keyed _ _ found := by cases found
  held _ field := by cases field <;> rfl
  reports _ member := by cases member

/-- The least sample is still in the cell at the end of the period: it is the
least of what came behind the last 0, or it is 0 itself and nothing did. -/
def Outlasts (least : Nat) (kept : List Nat) : Prop :=
  IsLeast {value | value ∈ kept.rtakeWhile (· ≠ 0)} least ∨ least = 0 ∧ kept.rtakeWhile (· ≠ 0) = []

/-- The report has the least of what was sampled for the field, if anything
was. -/
def ReportsLeast (closed : TcpMetrics × List Sock) (field : MinField) : Prop :=
  ∀ least, IsLeast {value | value ∈ Watched.samples field closed.2} least → closed.1.data.info.least field = least

theorem minima_reported_iff (host : ByteOrder) (sockMap : BoundedMap SockPtr TcpSockInfo tcpTupleMax)
    (fdMap : BoundedMap UInt32 TcpFdInfo tcpFdMax) (args : Option TcpArgs) (tasks : UInt32 → Bool)
    (events : List TcpEvent) :
    let watched := Watched.run host (loaded sockMap fdMap args tasks) events
    watched.reports.map Prod.fst = (events.foldl (step host) (loaded sockMap fdMap args tasks)).output ∧
    ∀ closed ∈ watched.reports, ∀ field,
      (ReportsLeast closed field ↔ ∀ least, IsLeast {value | value ∈ Watched.samples field closed.2} least →
        Outlasts least (Watched.kept field closed.2)) ∧
      ((∀ value ∈ Watched.samples field closed.2, field.stored value = some value) →
        (ReportsLeast closed field ↔
          0 ∉ Watched.samples field closed.2 ∨ (Watched.samples field closed.2).getLast? = some 0)) := by
  intro watched
  obtain ⟨all, probe⟩ :=
    Watched.foldl_reports host events (show (Watched.start (loaded sockMap fdMap args tasks)).reports.map Prod.fst = _ from rfl)
  have sampled : watched.Sampled := Watched.foldl_sampled host events (sampled_loaded sockMap fdMap args tasks)
  refine ⟨all.trans (congrArg TcpProbe.output probe), fun closed member field => ?_⟩
  rw [ReportsLeast, sampled.reports closed member field]
  refine ⟨forall₂_congr fun least _ => foldl_lower_eq_iff _ least, fun uncut => ?_⟩
  rw [Watched.kept_of_uncut uncut]
  exact foldl_lower_iff _

/-- `tcp_recvmsg` of one socket with this receive window. -/
def received (rcvWnd : UInt32) (now : UInt64) : TcpEvent :=
  .tcpRecvmsg
    { skPtr := 1, sk := { rcvWnd }, tgid := 7, sockByFd := fun _ => 0, createdAt := now, readAt := now, reportedAt := now }

def knowing : TcpProbe := loaded ⟨[(1, { tgid := 7 })], by decide, by decide⟩ .empty none fun _ => false

/-- A window that closes and opens again within a period is reported as if it
had never been closed. -/
theorem closed_window_lost :
    ∃ closed ∈ (Watched.run .little knowing
        [received 100 1, received 0 2, received 500 40000000000]).reports,
      closed.1.data.info.rcvWnd = 500 ∧ Watched.samples .rcvWnd closed.2 = [0, 500] ∧ ¬ReportsLeast closed .rcvWnd := by
  let run := Watched.run .little knowing [received 100 1, received 0 2, received 500 40000000000]
  have values : (run.reports.map fun closed => (closed.1.data.info.rcvWnd, Watched.samples .rcvWnd closed.2)) =
      [(100, [100]), (500, [0, 500])] := by decide +kernel
  obtain ⟨closed, member, same⟩ := List.mem_map.mp
    (show (500, [0, 500]) ∈ run.reports.map fun closed => (closed.1.data.info.rcvWnd, Watched.samples .rcvWnd closed.2) by
      rw [values]
      simp)
  obtain ⟨value, read⟩ := Prod.mk.inj same
  refine ⟨closed, member, value, read, fun right => ?_⟩
  have least := right 0 (by rw [read]; exact ⟨by simp, fun _ _ => Nat.zero_le _⟩)
  rw [TcpState.least, value] at least
  exact absurd least (by decide)

end TcpProbe

end GalaGopher.Ebpf
