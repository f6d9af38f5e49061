import GalaGopher.Ebpf.TcpProbe
import Mathlib.Data.Nat.ModEq
import Mathlib.Algebra.BigOperators.Group.List.Basic

namespace GalaGopher.Ebpf

open Data

/-- What an event adds to the counters of the entry it gets. -/
def TcpEvent.increment (event : TcpEvent) (counter : Counter) : Nat :=
  match event, counter with
  | .tcpSendmsg _ size, .tx => size.toNat
  | .tcpCleanupRbuf _ copied, .rx => copied.toInt64.toUInt64.toNat
  | .tcpRetransmitSkb _ segs, .totalRetrans => segs.toInt64.toUInt64.toNat
  | .tcpAddBacklog .., .backlogDrops => 1
  | .tcpFilter .., .filterDrops => 1
  | .tcpWriteErr _, .tmout => 1
  | .sockExceedBufLimit _, .sndbufLimit => 1
  | .tcpDone _, .attemptFails => 1
  | .tcpTryRmemSchedule .., .rmemScheduls => 1
  | .tcpCheckOom .., .tcpOom => 1
  | .tcpSendReset _, .sendRsts => 1
  | .tcpReceiveReset _, .receiveRsts => 1
  | _, _ => 0

namespace TcpProbe

variable (host : ByteOrder)

/-- The link whose entry `get_tcp_metrics` returns. -/
def entry (probe : TcpProbe) (context : HookContext) : Option TcpLink :=
  (probe.getTcpMetrics host context).2.map fun found => found.1.link

/-- The link whose entry the hook of an event gets, if it asks for one. -/
def entryOf (probe : TcpProbe) : TcpEvent → Option TcpLink
  | .tcpSendmsg context _ | .tcpRecvmsg context => (probe.ownSock context).entry host context
  | .tcpAddBacklog discard stashed | .tcpFilter discard stashed =>
      if discard then stashed.bind (probe.entry host) else none
  | .tcpWriteErr context | .sockExceedBufLimit context | .tcpSendReset context
  | .tcpReceiveReset context | .tcpRetransmitSkb context _ => probe.entry host context
  | .tcpCleanupRbuf context copied => if copied ≤ 0 then none else probe.entry host context
  | .tcpDone context =>
      let state := context.sk.skState.toUInt16
      if state = tcpSynSent ∨ state = tcpSynRecv then probe.entry host context else none
  | .tcpTryRmemSchedule ret stashed => if ret = 0 then none else stashed.bind (probe.entry host)
  | .tcpCheckOom ret stashed => if ret then stashed.bind (probe.entry host) else none
  | .tcpSetState .. | .tcpDestroySock _ | .setArgs _ | .setTasks _ | .setFds _ => none

/-- The increments of the events of a run that got the entry of `link`. -/
def increments (link : TcpLink) (counter : Counter) (probe : TcpProbe) : List TcpEvent → Nat
  | [] => 0
  | event :: rest =>
      (if probe.entryOf host event = some link then event.increment counter else 0) +
        increments link counter (probe.step host event) rest

/-- The sum over the reports of a link. -/
def reported (probe : TcpProbe) (link : TcpLink) (counter : Counter) : Nat :=
  ((probe.output.filter fun metrics => metrics.link = link).map fun metrics => metrics.data.count counter).sum

/-- The value in `tcp_link_map`. -/
def held (probe : TcpProbe) (link : TcpLink) (counter : Counter) : Nat :=
  (probe.linkMap.lookup link).elim 0 fun metrics => metrics.data.count counter

/-- Entries are stored under their own links. -/
def Keyed (probe : TcpProbe) : Prop :=
  ∀ link metrics, probe.linkMap.lookup link = some metrics → metrics.link = link

variable {host} {probe : TcpProbe} {context : HookContext} {link : TcpLink} {counter : Counter}

/-- The link entries and the reports are all that conservation looks at. -/
structure SameLinks (before after : TcpProbe) : Prop where
  linkMap : after.linkMap = before.linkMap
  output : after.output = before.output

theorem SameLinks.refl (probe : TcpProbe) : SameLinks probe probe := ⟨rfl, rfl⟩

theorem SameLinks.trans {first second third : TcpProbe} (earlier : SameLinks first second)
    (later : SameLinks second third) : SameLinks first third :=
  ⟨later.linkMap.trans earlier.linkMap, later.output.trans earlier.output⟩

theorem createSockObj_links (probe : TcpProbe) (tgid : UInt32) (skPtr : SockPtr) (info : TcpSockInfo) :
    SameLinks probe (probe.createSockObj tgid skPtr info) := by
  unfold createSockObj
  split <;> exact ⟨rfl, rfl⟩

theorem doLoadTcpFd_links (probe : TcpProbe) (context : HookContext) (fd : Int32) (info : TcpSockInfo) :
    SameLinks probe (probe.doLoadTcpFd context fd info) := by
  simp only [doLoadTcpFd]
  split
  case isTrue => exact .refl probe
  case isFalse =>
      split
      case isTrue => exact .refl probe
      case isFalse => exact createSockObj_links ..

theorem loadTcpFd_links (probe : TcpProbe) (context : HookContext) :
    SameLinks probe (probe.loadTcpFd context) := by
  have loads (slots : List (Int32 × UInt8)) (probe : TcpProbe) :
      SameLinks probe (slots.foldl (loadSlot context) probe) := by
    induction slots generalizing probe with
    | nil => exact .refl probe
    | cons slot rest ih => exact (doLoadTcpFd_links ..).trans (ih _)
  unfold loadTcpFd
  split
  case h_1 => exact .refl probe
  case h_2 fdInfo _ =>
      have loaded := loads (fdInfo.fds.toList.zip fdInfo.fdRole.toList) probe
      exact ⟨loaded.linkMap, loaded.output⟩

theorem ownSock_links (probe : TcpProbe) (context : HookContext) :
    SameLinks probe (probe.ownSock context) := by
  have loaded := probe.loadTcpFd_links context
  exact ⟨loaded.linkMap, loaded.output⟩

theorem SameLinks.reported {after : TcpProbe} (same : SameLinks probe after) :
    after.reported link counter = probe.reported link counter := by
  rw [TcpProbe.reported, same.output]
  rfl

theorem SameLinks.held {after : TcpProbe} (same : SameLinks probe after) :
    after.held link counter = probe.held link counter := by
  rw [TcpProbe.held, same.linkMap]
  rfl

theorem SameLinks.keyed {after : TcpProbe} (same : SameLinks probe after) (keyed : probe.Keyed) :
    after.Keyed := by
  intro link metrics found
  rw [same.linkMap] at found
  exact keyed link metrics found

theorem tcpSetState_links (probe : TcpProbe) (host : ByteOrder) (context : HookContext) (newState : UInt16) :
    SameLinks probe (probe.tcpSetState host context newState) := by
  -- `delete_tcp_link` tests the flag of a link it has just zeroed
  have undeleted (probe : TcpProbe) (skPtr : SockPtr) (sk : Sock) :
      probe.deleteTcpLink host skPtr sk = probe := rfl
  have creates (probe : TcpProbe) (holds : Prop) [Decidable holds] (tgid : UInt32) (info : TcpSockInfo) :
      SameLinks probe (if holds then probe.createSockObj tgid context.skPtr info else probe) := by
    split
    case isTrue => exact createSockObj_links ..
    case isFalse => exact .refl probe
  simp only [tcpSetState, undeleted, ite_self]
  exact (creates ..).trans (creates ..)

/-- What a report clears, in the entry of a link or in a new one. -/
def body (probe : TcpProbe) (link : TcpLink) : TcpHealth × TcpState :=
  (probe.linkMap.lookup link).elim ({}, {}) fun metrics => (metrics.data.health, metrics.data.info)

theorem held_eq_count (probe : TcpProbe) (link : TcpLink) (counter : Counter) :
    probe.held link counter =
      TcpStatistics.count { health := (probe.body link).1, info := (probe.body link).2 } counter := by
  simp only [held, body]
  cases probe.linkMap.lookup link with
  | none => cases counter <;> rfl
  | some metrics => cases counter <;> rfl

/-- What `get_tcp_metrics` leaves and returns: no entry, the one that is there, or
a new one. -/
inductive Entered (probe : TcpProbe) : TcpProbe × Option (TcpMetrics × Bool) → Prop where
  | missed : Entered probe (probe, none)
  | known (link : TcpLink) (refresh : TcpMetrics → TcpMetrics) (old : TcpMetrics)
      (present : probe.linkMap.lookup link = some old) (stays : ∀ metrics, (refresh metrics).link = metrics.link)
      (keeps : ∀ metrics, (refresh metrics).data.health = metrics.data.health ∧
        (refresh metrics).data.info = metrics.data.info) :
      Entered probe ({ probe with linkMap := probe.linkMap.modify link refresh }, some (refresh old, false))
  | made (metrics : TcpMetrics) (map : BoundedMap TcpLink TcpMetrics tcpLinkMax)
      (absent : probe.linkMap.lookup metrics.link = none) (health : metrics.data.health = {})
      (info : metrics.data.info = {}) (updated : probe.linkMap.update metrics.link metrics = some map) :
      Entered probe ({ probe with linkMap := map }, some (metrics, true))

theorem getTcpMetrics_entered (probe : TcpProbe) (host : ByteOrder) (context : HookContext) :
    Entered probe (probe.getTcpMetrics host context) := by
  unfold getTcpMetrics
  split
  case h_1 => exact .missed
  case h_2 link synSrtt _ =>
      split
      case h_1 old present =>
          simp only [BoundedMap.lookup_modify_self, present, Option.map_some]
          refine .known link _ old present (fun metrics => ?_) fun metrics => ?_
          · split <;> rfl
          · split <;> exact ⟨rfl, rfl⟩
      case h_2 absent =>
          cases created : probe.createTcpLink link synSrtt context.createdAt with
          | none => exact .missed
          | some after =>
              obtain ⟨map, updated, rfl⟩ := Option.map_eq_some_iff.mp created
              simp only [BoundedMap.lookup_update updated, if_true, Option.map_some]
              exact .made _ map absent rfl rfl updated

section Entered

variable {got : TcpProbe × Option (TcpMetrics × Bool)}

theorem Entered.body (entered : Entered probe got) (link : TcpLink) : got.1.body link = probe.body link := by
  cases entered with
  | missed => rfl
  | known own refresh old present stays keeps =>
      simp only [TcpProbe.body, BoundedMap.lookup_modify]
      split
      case isTrue same =>
          obtain ⟨health, info⟩ := keeps old
          rw [same, present, Option.map_some, Option.elim_some, Option.elim_some, health, info]
      case isFalse => rfl
  | made metrics map absent health info updated =>
      simp only [TcpProbe.body, BoundedMap.lookup_update updated]
      split
      case isTrue same => rw [same, absent, Option.elim_some, Option.elim_none, health, info]
      case isFalse => rfl

theorem Entered.output (entered : Entered probe got) : got.1.output = probe.output := by
  cases entered <;> rfl

theorem Entered.keyed (entered : Entered probe got) (keyed : probe.Keyed) : got.1.Keyed := by
  cases entered with
  | missed => exact keyed
  | known own refresh old present stays keeps =>
      intro link metrics found
      rw [BoundedMap.lookup_modify] at found
      split at found
      case isTrue same =>
          obtain ⟨before, here, rfl⟩ := Option.map_eq_some_iff.mp found
          rw [same, stays, keyed own before here]
      case isFalse => exact keyed link metrics found
  | made metrics map absent health info updated =>
      intro link other found
      rw [BoundedMap.lookup_update updated] at found
      split at found
      case isTrue same =>
          cases found
          exact same.symm
      case isFalse => exact keyed link other found

theorem Entered.found (entered : Entered probe got) (keyed : probe.Keyed) {metrics : TcpMetrics} {newEntry : Bool}
    (found : got.2 = some (metrics, newEntry)) : got.1.linkMap.lookup metrics.link = some metrics := by
  cases entered with
  | missed => cases found
  | known link refresh old present stays keeps =>
      cases found
      rw [stays, keyed link old present, BoundedMap.lookup_modify_self, present, Option.map_some]
  | made made map absent health info updated =>
      cases found
      rw [BoundedMap.lookup_update updated, if_pos rfl]

end Entered

theorem getTcpMetrics_body (probe : TcpProbe) (host : ByteOrder) (context : HookContext) (link : TcpLink) :
    (probe.getTcpMetrics host context).1.body link = probe.body link :=
  (probe.getTcpMetrics_entered host context).body link

theorem getTcpMetrics_output (probe : TcpProbe) (host : ByteOrder) (context : HookContext) :
    (probe.getTcpMetrics host context).1.output = probe.output :=
  (probe.getTcpMetrics_entered host context).output

/-- Getting an entry moves no counter. -/
structure Gets (before after : TcpProbe) : Prop where
  keyed : after.Keyed
  held : ∀ link counter, after.held link counter = before.held link counter
  output : after.output = before.output

theorem getTcpMetrics_gets (keyed : probe.Keyed) : Gets probe (probe.getTcpMetrics host context).1 where
  keyed := (probe.getTcpMetrics_entered host context).keyed keyed
  held link counter := by rw [held_eq_count, held_eq_count, getTcpMetrics_body]
  output := getTcpMetrics_output ..

theorem getTcpMetrics_found (keyed : probe.Keyed) {metrics : TcpMetrics} {newEntry : Bool}
    (found : (probe.getTcpMetrics host context).2 = some (metrics, newEntry)) :
    (probe.getTcpMetrics host context).1.linkMap.lookup metrics.link = some metrics :=
  (probe.getTcpMetrics_entered host context).found keyed found

/-- The entry goes out as it is and is cleared, or stays. -/
theorem report_cases (metrics : TcpMetrics) (newEntry : Bool) (now period : UInt64) :
    report metrics newEntry now period = (metrics, none) ∨
      ∃ ts, report metrics newEntry now period =
        ({ metrics with ts, data := metrics.data.clear }, some { metrics with ts }) := by
  unfold report
  split
  case isTrue => exact .inr ⟨metrics.ts, rfl⟩
  case isFalse =>
      split
      case isTrue => exact .inl rfl
      case isFalse => exact .inr ⟨now, rfl⟩

theorem report_conserves (metrics : TcpMetrics) (newEntry : Bool) (now period : UInt64) (counter : Counter) :
    ((report metrics newEntry now period).2.elim 0 fun emitted => emitted.data.count counter) +
      (report metrics newEntry now period).1.data.count counter = metrics.data.count counter := by
  rcases report_cases metrics newEntry now period with kept | ⟨ts, sent⟩
  · rw [kept, Option.elim_none, Nat.zero_add]
  · rw [sent, Option.elim_some, TcpStatistics.count_clear, Nat.add_zero]

theorem report_link (metrics : TcpMetrics) (newEntry : Bool) (now period : UInt64) :
    (report metrics newEntry now period).1.link = metrics.link ∧
      ∀ emitted, (report metrics newEntry now period).2 = some emitted → emitted.link = metrics.link := by
  rcases report_cases metrics newEntry now period with kept | ⟨ts, sent⟩
  · rw [kept]
    refine ⟨rfl, fun emitted same => ?_⟩
    cases same
  · rw [sent]
    refine ⟨rfl, fun emitted same => ?_⟩
    cases same
    rfl

/-- The counters of a link, reported and held. -/
def total (probe : TcpProbe) (link : TcpLink) (counter : Counter) : Nat :=
  probe.reported link counter + probe.held link counter

theorem SameLinks.total {after : TcpProbe} (same : SameLinks probe after) :
    after.total link counter = probe.total link counter := by
  rw [TcpProbe.total, same.reported, same.held]
  rfl

/-- The map and the output after a report on the entry of `target`. -/
def reportOn (probe : TcpProbe) (target : TcpLink) (outcome : TcpMetrics × Option TcpMetrics) : TcpProbe :=
  { probe with
    linkMap := probe.linkMap.modify target fun _ => outcome.1
    output := probe.output ++ outcome.2.toList }

theorem withMetrics_missed (missed : (probe.getTcpMetrics host context).2 = none)
    (change : TcpStatistics → TcpStatistics) :
    probe.withMetrics host context change = (probe.getTcpMetrics host context).1 := by
  simp only [withMetrics]
  split
  case h_1 equal => rw [equal]
  case h_2 equal =>
      rw [equal] at missed
      cases missed

theorem withMetrics_found {metrics : TcpMetrics} {newEntry : Bool}
    (found : (probe.getTcpMetrics host context).2 = some (metrics, newEntry))
    (change : TcpStatistics → TcpStatistics) :
    probe.withMetrics host context change =
      (probe.getTcpMetrics host context).1.reportOn metrics.link
        (report { metrics with data := change metrics.data } newEntry context.reportedAt
          (probe.getTcpMetrics host context).1.getPeriod) := by
  simp only [withMetrics]
  split
  case h_1 equal =>
      rw [equal] at found
      cases found
  case h_2 equal =>
      rw [equal] at found ⊢
      cases found
      rfl

section ReportOn

variable {target : TcpLink} {outcome : TcpMetrics × Option TcpMetrics}
  (keptLink : outcome.1.link = target) (sentLink : ∀ sent, outcome.2 = some sent → sent.link = target)

include keptLink in
theorem reportOn_keyed (keyed : probe.Keyed) : (probe.reportOn target outcome).Keyed := by
  intro other stored lookup
  simp only [reportOn, BoundedMap.lookup_modify] at lookup
  split at lookup
  case isTrue same =>
      obtain ⟨old, _, rfl⟩ := Option.map_eq_some_iff.mp lookup
      rw [same]
      exact keptLink
  case isFalse => exact keyed other stored lookup

include sentLink in
theorem reportOn_total_other (other : link ≠ target) :
    (probe.reportOn target outcome).total link counter = probe.total link counter := by
  have silent : (outcome.2.toList.filter fun metrics => metrics.link = link) = [] := by
    rw [List.filter_eq_nil_iff]
    intro sent member
    have own := sentLink sent (by simpa using member)
    simp [own, Ne.symm other]
  simp only [total, reported, held, reportOn, List.filter_append, silent, List.append_nil,
    BoundedMap.lookup_modify_of_ne other]

include sentLink in
theorem reportOn_total_own {metrics : TcpMetrics} (present : probe.linkMap.lookup target = some metrics) :
    (probe.reportOn target outcome).total target counter =
      probe.reported target counter +
        ((outcome.2.elim 0 fun sent => sent.data.count counter) + outcome.1.data.count counter) := by
  have sent : ((outcome.2.toList.filter fun metrics => metrics.link = target).map
      fun metrics => metrics.data.count counter).sum =
        outcome.2.elim 0 fun sent => sent.data.count counter := by
    cases sent : outcome.2 with
    | none => rfl
    | some metrics => simp [sentLink metrics sent]
  simp only [total, reported, held, reportOn, List.filter_append, List.map_append, List.sum_append, sent,
    BoundedMap.lookup_modify_self, present, Option.map_some, Option.elim_some, Nat.add_assoc]

end ReportOn

/-- A hook moves the total of its own link, by what it adds. -/
theorem withMetrics_total (keyed : probe.Keyed) {change : TcpStatistics → TcpStatistics} {added : Nat}
    (adds : ∀ data, (change data).count counter ≡ data.count counter + added [MOD 2 ^ counter.width]) :
    (probe.withMetrics host context change).total link counter ≡
      probe.total link counter + (if probe.entry host context = some link then added else 0)
        [MOD 2 ^ counter.width] := by
  have gets : Gets probe (probe.getTcpMetrics host context).1 := getTcpMetrics_gets keyed
  have before : (probe.getTcpMetrics host context).1.total link counter = probe.total link counter := by
    rw [total, total, gets.held, reported, reported, gets.output]
  cases found : (probe.getTcpMetrics host context).2 with
  | none =>
      have absent : probe.entry host context = none := by rw [entry, found]; rfl
      rw [withMetrics_missed found, before, absent, if_neg (by simp)]
      rfl
  | some pair =>
      obtain ⟨metrics, newEntry⟩ := pair
      have present := getTcpMetrics_found keyed found
      have own : probe.entry host context = some metrics.link := by rw [entry, found]; rfl
      let changed : TcpMetrics := { metrics with data := change metrics.data }
      have links := report_link changed newEntry context.reportedAt (probe.getTcpMetrics host context).1.getPeriod
      rw [withMetrics_found found, own, ← before]
      by_cases same : link = metrics.link
      · subst same
        rw [reportOn_total_own links.2 present, report_conserves, if_pos rfl, total, held, present, Nat.add_assoc]
        exact (adds metrics.data).add_left _
      · rw [reportOn_total_other links.2 same, if_neg (by simpa using Ne.symm same)]
        rfl

theorem withMetrics_keyed (keyed : probe.Keyed) (change : TcpStatistics → TcpStatistics) :
    (probe.withMetrics host context change).Keyed := by
  have gets : Gets probe (probe.getTcpMetrics host context).1 := getTcpMetrics_gets keyed
  cases found : (probe.getTcpMetrics host context).2 with
  | none =>
      rw [withMetrics_missed found]
      exact gets.keyed
  | some pair =>
      rw [withMetrics_found found]
      exact reportOn_keyed (report_link ..).1 gets.keyed

theorem add_adds (target : Counter) (delta : UInt64) (counter : Counter) (data : TcpStatistics) :
    (data.add target delta).count counter ≡
      data.count counter + (if counter = target then delta.toNat else 0) [MOD 2 ^ counter.width] := by
  rw [TcpStatistics.count_add]
  split
  case isTrue => exact Nat.mod_modEq _ _
  case isFalse => exact Nat.ModEq.refl _

/-- One event conserves every counter of every link. -/
structure Conserves (link : TcpLink) (counter : Counter) (before after : TcpProbe)
    (entry : Option TcpLink) (added : Nat) : Prop where
  keyed : after.Keyed
  total : after.total link counter ≡
    before.total link counter + (if entry = some link then added else 0) [MOD 2 ^ counter.width]

theorem SameLinks.conserves {after : TcpProbe} (same : SameLinks probe after) (keyed : probe.Keyed)
    (added : Nat) : Conserves link counter probe after none added where
  keyed := same.keyed keyed
  total := by
    rw [same.total, if_neg (by simp)]
    rfl

theorem countEvent_conserves (keyed : probe.Keyed) (target : Counter) (delta : UInt64) {added : Nat}
    (adds : added = if counter = target then delta.toNat else 0) :
    Conserves link counter probe (probe.countEvent host context target delta)
      (probe.entry host context) added where
  keyed := withMetrics_keyed keyed _
  total := by
    rw [adds]
    exact withMetrics_total keyed (add_adds target delta counter)

/-- A return probe counts if it finds its call and the call's result says so. -/
theorem stashed_conserves (keyed : probe.Keyed) (target : Counter) {added : Nat}
    (adds : added = if counter = target then 1 else 0) (stashed : Option HookContext) :
    Conserves link counter probe
      (match stashed with
        | none => probe
        | some context => probe.countEvent host context target 1)
      (stashed.bind (probe.entry host)) added := by
  cases stashed with
  | none => exact (SameLinks.refl probe).conserves keyed added
  | some context => exact countEvent_conserves keyed target 1 adds

theorem untouched_conserves (keyed : probe.Keyed) {event : TcpEvent}
    (linkMap : (probe.step host event).linkMap = probe.linkMap)
    (output : (probe.step host event).output = probe.output) (entry : probe.entryOf host event = none) :
    Conserves link counter probe (probe.step host event) (probe.entryOf host event)
      (event.increment counter) := by
  rw [entry]
  exact SameLinks.conserves ⟨linkMap, output⟩ keyed _

/-- The hooks' own test for a null socket is one of `get_tcp_link_key` too. -/
theorem countEvent_nonnull (probe : TcpProbe) (host : ByteOrder) (context : HookContext) (target : Counter)
    (delta : UInt64) :
    (if context.skPtr = 0 then probe else probe.countEvent host context target delta) =
      probe.countEvent host context target delta := by
  split
  case isTrue null => simp [countEvent, withMetrics, getTcpMetrics, getTcpLinkKey, null]
  case isFalse => rfl

theorem step_conserves (host : ByteOrder) (link : TcpLink) (counter : Counter) (keyed : probe.Keyed)
    (event : TcpEvent) :
    Conserves link counter probe (probe.step host event) (probe.entryOf host event)
      (event.increment counter) := by
  cases event with
  | tcpSetState context newState => exact (tcpSetState_links ..).conserves keyed _
  | tcpDestroySock skPtr => exact untouched_conserves keyed rfl rfl rfl
  | tcpSendmsg context size =>
      have own := ownSock_links probe context
      rw [step, tcpSendmsg]
      refine ⟨withMetrics_keyed (own.keyed keyed) _, ?_⟩
      rw [← own.total]
      apply withMetrics_total (own.keyed keyed)
      intro data
      rw [TcpStatistics.count_read]
      have adds := add_adds .tx size counter data
      cases counter <;> exact adds
  | tcpRecvmsg context =>
      have own := ownSock_links probe context
      rw [step, tcpRecvmsg]
      refine ⟨withMetrics_keyed (own.keyed keyed) _, ?_⟩
      rw [← own.total]
      apply withMetrics_total (own.keyed keyed)
      intro data
      rw [TcpStatistics.count_read]
      cases counter <;> exact Nat.ModEq.refl _
  | tcpAddBacklog discard stashed =>
      cases discard with
      | false => cases stashed <;> exact (SameLinks.refl probe).conserves keyed _
      | true => exact stashed_conserves keyed .backlogDrops (by cases counter <;> rfl) stashed
  | tcpFilter discard stashed =>
      cases discard with
      | false => cases stashed <;> exact (SameLinks.refl probe).conserves keyed _
      | true => exact stashed_conserves keyed .filterDrops (by cases counter <;> rfl) stashed
  | tcpWriteErr context => exact countEvent_conserves keyed .tmout 1 (by cases counter <;> rfl)
  | tcpCleanupRbuf context copied =>
      simp only [step, tcpCleanupRbuf, entryOf]
      split
      case isTrue => exact (SameLinks.refl probe).conserves keyed _
      case isFalse =>
          exact countEvent_conserves keyed .rx copied.toInt64.toUInt64 (by cases counter <;> rfl)
  | sockExceedBufLimit context => exact countEvent_conserves keyed .sndbufLimit 1 (by cases counter <;> rfl)
  | tcpSendReset context => exact countEvent_conserves keyed .sendRsts 1 (by cases counter <;> rfl)
  | tcpReceiveReset context => exact countEvent_conserves keyed .receiveRsts 1 (by cases counter <;> rfl)
  | tcpRetransmitSkb context segs =>
      exact countEvent_conserves keyed .totalRetrans segs.toInt64.toUInt64 (by cases counter <;> rfl)
  | tcpDone context =>
      simp only [step, tcpDone, entryOf]
      split
      case isTrue => exact countEvent_conserves keyed .attemptFails 1 (by cases counter <;> rfl)
      case isFalse => exact (SameLinks.refl probe).conserves keyed _
  | tcpTryRmemSchedule ret stashed =>
      simp only [step, tcpTryRmemSchedule, entryOf, countEvent_nonnull]
      by_cases succeeded : ret = 0
      · cases stashed <;> simpa only [if_pos succeeded] using (SameLinks.refl probe).conserves keyed _
      · simp only [if_neg succeeded]
        exact stashed_conserves keyed .rmemScheduls (by cases counter <;> rfl) stashed
  | tcpCheckOom ret stashed =>
      simp only [step, tcpCheckOom, entryOf, countEvent_nonnull]
      cases ret with
      | false => cases stashed <;> exact (SameLinks.refl probe).conserves keyed _
      | true => exact stashed_conserves keyed .tcpOom (by cases counter <;> rfl) stashed
  | setArgs args => exact untouched_conserves keyed rfl rfl rfl
  | setTasks tasks => exact untouched_conserves keyed rfl rfl rfl
  | setFds fdMap => exact untouched_conserves keyed rfl rfl rfl

theorem run_conserves (host : ByteOrder) (keyed : probe.Keyed) (events : List TcpEvent)
    (link : TcpLink) (counter : Counter) :
    (events.foldl (step host) probe).total link counter ≡
      probe.total link counter + probe.increments host link counter events [MOD 2 ^ counter.width] := by
  induction events generalizing probe with
  | nil => exact Nat.ModEq.refl _
  | cons event rest ih =>
      have first := step_conserves host link counter keyed event
      rw [List.foldl_cons, increments, ← Nat.add_assoc]
      exact (ih first.keyed).trans (first.total.add_right _)

theorem counters_conserved (host : ByteOrder) (sockMap : BoundedMap SockPtr TcpSockInfo tcpTupleMax)
    (fdMap : BoundedMap UInt32 TcpFdInfo tcpFdMax) (args : Option TcpArgs) (tasks : UInt32 → Bool)
    (events : List TcpEvent) (link : TcpLink) (counter : Counter) :
    let loaded := { sockMap, linkMap := .empty, fdMap, args, tasks, output := [] : TcpProbe }
    let after := events.foldl (step host) loaded
    after.reported link counter + after.held link counter ≡
      loaded.increments host link counter events [MOD 2 ^ counter.width] := by
  intro loaded after
  have keyed : loaded.Keyed := by
    intro other metrics found
    cases found
  have run := run_conserves host keyed events link counter
  have start : loaded.total link counter = 0 := rfl
  rw [start, Nat.zero_add] at run
  exact run

end TcpProbe

end GalaGopher.Ebpf
