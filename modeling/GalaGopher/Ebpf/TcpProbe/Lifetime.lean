import GalaGopher.Ebpf.TcpProbe.Conservation
import Mathlib.Data.List.Perm.Subperm
import Mathlib.Logic.Function.Basic
import GalaGopher.Data.Runs

namespace GalaGopher.Ebpf

open Data

/-- The socket a hook runs for. -/
def TcpEvent.socket : TcpEvent → Option SockPtr
  | .tcpSetState context _ | .tcpSendmsg context _ | .tcpRecvmsg context | .tcpWriteErr context
  | .tcpCleanupRbuf context _ | .sockExceedBufLimit context | .tcpSendReset context
  | .tcpReceiveReset context | .tcpRetransmitSkb context _ | .tcpDone context => some context.skPtr
  | .tcpAddBacklog _ stashed | .tcpFilter _ stashed | .tcpTryRmemSchedule _ stashed
  | .tcpCheckOom _ stashed => stashed.map HookContext.skPtr
  | .tcpDestroySock skPtr => some skPtr
  | .setArgs _ | .setTasks _ | .setFds _ => none

/-- The entry a hook gets, and the socket its key was built from. -/
def TcpProbe.builds (probe : TcpProbe) (host : ByteOrder) (event : TcpEvent) : Option (SockPtr × TcpLink) :=
  event.socket.bind fun skPtr => (probe.entryOf host event).map fun link => (skPtr, link)

/-- A probe beside the keys under which each socket got entries, since it was
last destroyed, and the keys of the destroyed sockets. -/
structure Lifetime where
  probe : TcpProbe
  built : SockPtr → List TcpLink
  gone : List TcpLink

namespace Lifetime

/-- The maps of the sockets and the links start empty. -/
def start (fdMap : BoundedMap UInt32 TcpFdInfo tcpFdMax) (args : Option TcpArgs) (tasks : UInt32 → Bool) :
    Lifetime where
  probe := { sockMap := .empty, linkMap := .empty, fdMap, args, tasks, output := [] }
  built := fun _ => []
  gone := []

/-- A key is of a living socket again when a hook builds it again. -/
def build (trace : Lifetime) (skPtr : SockPtr) (link : TcpLink) : Lifetime :=
  { trace with
    built := Function.update trace.built skPtr ((trace.built skPtr).insert link)
    gone := trace.gone.filter fun other => other ≠ link }

def destroy (trace : Lifetime) (skPtr : SockPtr) : Lifetime :=
  { trace with
    built := Function.update trace.built skPtr []
    gone := trace.built skPtr ++ trace.gone }

def step (host : ByteOrder) (trace : Lifetime) (event : TcpEvent) : Lifetime :=
  let traced : Lifetime :=
    match event with
    | .tcpDestroySock skPtr => trace.destroy skPtr
    | event =>
        match trace.probe.builds host event with
        | none => trace
        | some (skPtr, link) => trace.build skPtr link
  { traced with probe := trace.probe.step host event }

/-- No entry is left of a destroyed socket, and no more entries than sockets. -/
structure Bounded (trace : Lifetime) : Prop where
  gone : ∀ link ∈ trace.gone, trace.probe.linkMap.lookup link = none
  entries : trace.probe.linkMap.entries.length ≤ trace.probe.sockMap.entries.length

/-- A destroyed socket never got an entry, and the hooks of a living one build
the key they built before. -/
def Kept (host : ByteOrder) (trace : Lifetime) (event : TcpEvent) : Prop :=
  match event with
  | .tcpDestroySock skPtr => trace.built skPtr = []
  | event => ∀ skPtr link, trace.probe.builds host event = some (skPtr, link) → trace.built skPtr ⊆ [link]

end Lifetime

namespace TcpProbe

variable {host : ByteOrder} {probe after : TcpProbe} {context : HookContext} {event : TcpEvent}

/-- What an event leaves of the sockets and links the probe knew. -/
structure Extends (before after : TcpProbe) (entry : Option TcpLink) : Prop where
  sockets : ∀ skPtr, (before.sockMap.lookup skPtr).isSome → (after.sockMap.lookup skPtr).isSome
  links : ∀ link, (after.linkMap.lookup link).isSome ↔ (before.linkMap.lookup link).isSome ∨ entry = some link

theorem sameMaps_extends (sockMap : after.sockMap = probe.sockMap) (linkMap : after.linkMap = probe.linkMap) :
    Extends probe after none where
  sockets skPtr found := by rwa [sockMap]
  links link := by simp [linkMap]

theorem Extends.refl (probe : TcpProbe) : Extends probe probe none := sameMaps_extends rfl rfl

theorem Extends.trans {first second third : TcpProbe} {entry : Option TcpLink} (earlier : Extends first second none)
    (later : Extends second third entry) : Extends first third entry where
  sockets skPtr found := later.sockets skPtr (earlier.sockets skPtr found)
  links link := by simp [later.links, earlier.links]

theorem SameLinks.extends (same : SameLinks probe after)
    (sockets : ∀ skPtr, (probe.sockMap.lookup skPtr).isSome → (after.sockMap.lookup skPtr).isSome) :
    Extends probe after none where
  sockets := sockets
  links link := by simp [same.linkMap]

theorem createSockObj_extends (probe : TcpProbe) (tgid : UInt32) (skPtr : SockPtr) (info : TcpSockInfo) :
    Extends probe (probe.createSockObj tgid skPtr info) none := by
  apply (createSockObj_links probe tgid skPtr info).extends
  intro other found
  unfold createSockObj
  split
  case h_1 sockMap updated =>
      rw [BoundedMap.lookup_update updated]
      split
      case isTrue => rfl
      case isFalse => exact found
  case h_2 => exact found

theorem updateSockObj_extends (probe : TcpProbe) (skPtr : SockPtr) (tgid : UInt32) :
    Extends probe (probe.updateSockObj skPtr tgid) none where
  sockets other found := by simpa [updateSockObj] using found
  links link := by simp [updateSockObj]

theorem loadTcpFd_extends (probe : TcpProbe) (context : HookContext) : Extends probe (probe.loadTcpFd context) none := by
  have slot (probe : TcpProbe) (slot : Int32 × UInt8) : Extends probe (loadSlot context probe slot) none := by
    simp only [loadSlot, doLoadTcpFd]
    split
    case isTrue => exact .refl probe
    case isFalse =>
        split
        case isTrue => exact .refl probe
        case isFalse => exact createSockObj_extends ..
  have loads (slots : List (Int32 × UInt8)) (probe : TcpProbe) :
      Extends probe (slots.foldl (loadSlot context) probe) none := by
    induction slots generalizing probe with
    | nil => exact .refl probe
    | cons first rest ih => exact (slot probe first).trans (ih _)
  unfold loadTcpFd
  split
  case h_1 => exact .refl probe
  case h_2 fdInfo _ =>
      have loaded := loads (fdInfo.fds.toList.zip fdInfo.fdRole.toList) probe
      exact ⟨loaded.sockets, loaded.links⟩

theorem ownSock_extends (probe : TcpProbe) (context : HookContext) : Extends probe (probe.ownSock context) none :=
  (loadTcpFd_extends probe context).trans (updateSockObj_extends _ context.skPtr context.tgid)

theorem tcpSetState_extends (probe : TcpProbe) (host : ByteOrder) (context : HookContext) (newState : UInt16) :
    Extends probe (probe.tcpSetState host context newState) none := by
  -- `delete_tcp_link` tests the flag of a link it has just zeroed
  have undeleted (probe : TcpProbe) (skPtr : SockPtr) (sk : Sock) :
      probe.deleteTcpLink host skPtr sk = probe := rfl
  have creates (probe : TcpProbe) (holds : Prop) [Decidable holds] (tgid : UInt32) (info : TcpSockInfo) :
      Extends probe (if holds then probe.createSockObj tgid context.skPtr info else probe) none := by
    split
    case isTrue => exact createSockObj_extends ..
    case isFalse => exact .refl probe
  simp only [tcpSetState, undeleted, ite_self]
  exact (creates ..).trans (creates ..)

theorem getTcpMetrics_sockMap : (probe.getTcpMetrics host context).1.sockMap = probe.sockMap := by
  have entered := probe.getTcpMetrics_entered host context
  generalize probe.getTcpMetrics host context = got at entered
  cases entered <;> rfl

theorem getTcpLinkKey_socket {skPtr : SockPtr} {sk : Sock} {found : TcpLink × UInt32}
    (key : probe.getTcpLinkKey host skPtr sk = some found) : (probe.sockMap.lookup skPtr).isSome := by
  cases known : probe.sockMap.lookup skPtr with
  | none => simp [getTcpLinkKey, known] at key
  | some info => rfl

theorem entry_socket {link : TcpLink} (own : probe.entry host context = some link) :
    (probe.sockMap.lookup context.skPtr).isSome := by
  cases key : probe.getTcpLinkKey host context.skPtr context.sk with
  | none => simp [entry, getTcpMetrics, key] at own
  | some found => exact getTcpLinkKey_socket key

theorem Entered.links {got : TcpProbe × Option (TcpMetrics × Bool)} (entered : Entered probe got) (keyed : probe.Keyed)
    (link : TcpLink) : (got.1.linkMap.lookup link).isSome ↔
      (probe.linkMap.lookup link).isSome ∨ (got.2.map fun found => found.1.link) = some link := by
  cases entered with
  | missed => simp
  | known own refresh old present stays keeps =>
      rw [BoundedMap.isSome_lookup_modify, Option.map_some, Option.some.injEq, stays, keyed own old present]
      refine ⟨.inl, ?_⟩
      rintro (found | rfl)
      · exact found
      · rw [present]
        rfl
  | made metrics map absent health info updated =>
      rw [BoundedMap.lookup_update updated, Option.map_some, Option.some.injEq]
      by_cases same : link = metrics.link
      · simp [same]
      · simp [same, Ne.symm same]

/-- The entry a hook gets is the only one that can be new. -/
theorem getTcpMetrics_links (keyed : probe.Keyed) (link : TcpLink) :
    ((probe.getTcpMetrics host context).1.linkMap.lookup link).isSome ↔
      (probe.linkMap.lookup link).isSome ∨ probe.entry host context = some link :=
  (probe.getTcpMetrics_entered host context).links keyed link

theorem withMetrics_extends (keyed : probe.Keyed) (change : TcpStatistics → TcpStatistics) :
    Extends probe (probe.withMetrics host context change) (probe.entry host context) := by
  have gets : Extends probe (probe.getTcpMetrics host context).1 (probe.entry host context) :=
    ⟨fun skPtr found => by rwa [getTcpMetrics_sockMap], getTcpMetrics_links keyed⟩
  cases found : (probe.getTcpMetrics host context).2 with
  | none =>
      rw [withMetrics_missed found]
      exact gets
  | some pair =>
      rw [withMetrics_found found]
      refine ⟨gets.sockets, fun link => ?_⟩
      rw [← gets.links link]
      simp [reportOn]

/-- What an event leaves, and that it gets entries only for sockets it knows. -/
structure Touches (probe after : TcpProbe) (socket : Option SockPtr) (entry : Option TcpLink) : Prop
    extends Extends probe after entry where
  owner : ∀ skPtr link, socket = some skPtr → entry = some link → (after.sockMap.lookup skPtr).isSome

theorem Extends.touches (left : Extends probe after none) (socket : Option SockPtr) :
    Touches probe after socket none where
  toExtends := left
  owner _ _ _ absent := by cases absent

theorem withMetrics_touches (keyed : probe.Keyed) (change : TcpStatistics → TcpStatistics) :
    Touches probe (probe.withMetrics host context change) (some context.skPtr) (probe.entry host context) where
  toExtends := withMetrics_extends keyed change
  owner skPtr link same own := by
    cases same
    exact (withMetrics_extends keyed change).sockets _ (entry_socket own)

theorem countEvent_touches (keyed : probe.Keyed) (target : Counter) (delta : UInt64) :
    Touches probe (probe.countEvent host context target delta) (some context.skPtr) (probe.entry host context) :=
  withMetrics_touches keyed _

theorem Touches.following {middle : TcpProbe} {socket : Option SockPtr} {entry : Option TcpLink}
    (later : Touches middle after socket entry) (earlier : Extends probe middle none) :
    Touches probe after socket entry where
  toExtends := earlier.trans later.toExtends
  owner := later.owner

theorem stashed_touches (keyed : probe.Keyed) (target : Counter) (stashed : Option HookContext) :
    Touches probe
      (match stashed with
        | none => probe
        | some context => probe.countEvent host context target 1)
      (stashed.map HookContext.skPtr) (stashed.bind (probe.entry host)) := by
  cases stashed with
  | none => exact (Extends.refl probe).touches none
  | some context => exact countEvent_touches keyed _ _

theorem step_touches (host : ByteOrder) (keyed : probe.Keyed) (event : TcpEvent)
    (living : ∀ skPtr, event ≠ .tcpDestroySock skPtr) :
    Touches probe (probe.step host event) event.socket (probe.entryOf host event) := by
  have unchanged (socket : Option SockPtr) : Touches probe probe socket none := (Extends.refl probe).touches socket
  cases event with
  | tcpSetState context newState => exact (tcpSetState_extends ..).touches _
  | tcpDestroySock skPtr => exact absurd rfl (living skPtr)
  | tcpSendmsg context size =>
      apply Touches.following _ (ownSock_extends probe context)
      simp only [step, tcpSendmsg, TcpEvent.socket, entryOf]
      exact withMetrics_touches ((ownSock_links probe context).keyed keyed) _
  | tcpRecvmsg context =>
      apply Touches.following _ (ownSock_extends probe context)
      exact withMetrics_touches ((ownSock_links probe context).keyed keyed) _
  | tcpAddBacklog discard stashed =>
      cases discard with
      | false => cases stashed <;> exact unchanged _
      | true => exact stashed_touches keyed _ stashed
  | tcpFilter discard stashed =>
      cases discard with
      | false => cases stashed <;> exact unchanged _
      | true => exact stashed_touches keyed _ stashed
  | tcpCleanupRbuf context copied =>
      simp only [step, tcpCleanupRbuf, entryOf]
      split
      case isTrue => exact unchanged _
      case isFalse => exact countEvent_touches keyed _ _
  | tcpDone context =>
      simp only [step, tcpDone, entryOf]
      split
      case isTrue => exact countEvent_touches keyed _ _
      case isFalse => exact unchanged _
  | tcpTryRmemSchedule ret stashed =>
      simp only [step, tcpTryRmemSchedule, entryOf, countEvent_nonnull]
      by_cases succeeded : ret = 0
      · cases stashed <;> simpa only [if_pos succeeded] using unchanged _
      · simp only [if_neg succeeded]
        exact stashed_touches keyed _ stashed
  | tcpCheckOom ret stashed =>
      simp only [step, tcpCheckOom, entryOf, countEvent_nonnull]
      cases ret with
      | false => cases stashed <;> exact unchanged _
      | true => exact stashed_touches keyed _ stashed
  | tcpWriteErr context => exact countEvent_touches keyed _ _
  | sockExceedBufLimit context => exact countEvent_touches keyed _ _
  | tcpSendReset context => exact countEvent_touches keyed _ _
  | tcpReceiveReset context => exact countEvent_touches keyed _ _
  | tcpRetransmitSkb context segs => exact countEvent_touches keyed _ _
  | setArgs args =>
      apply Extends.touches
      exact sameMaps_extends rfl rfl
  | setTasks tasks =>
      apply Extends.touches
      exact sameMaps_extends rfl rfl
  | setFds fdMap =>
      apply Extends.touches
      exact sameMaps_extends rfl rfl

theorem step_keyed (host : ByteOrder) (keyed : probe.Keyed) (event : TcpEvent) : (probe.step host event).Keyed :=
  (step_conserves host {} .tx keyed event).keyed

theorem socket_of_entry {link : TcpLink} (own : probe.entryOf host event = some link) :
    ∃ skPtr, event.socket = some skPtr := by
  cases event with
  | tcpAddBacklog discard stashed | tcpFilter discard stashed | tcpTryRmemSchedule ret stashed
  | tcpCheckOom ret stashed =>
    cases stashed with
    | none => simp [entryOf] at own
    | some context => exact ⟨context.skPtr, rfl⟩
  | setArgs args | setTasks tasks | setFds fdMap => cases own
  | _ => exact ⟨_, rfl⟩

end TcpProbe

namespace Lifetime

variable {host : ByteOrder} {trace : Lifetime} {event : TcpEvent}

/-- An event that destroys nothing. -/
theorem step_of_living (living : ∀ skPtr, event ≠ .tcpDestroySock skPtr) :
    trace.step host event =
      match trace.probe.builds host event with
      | none => { trace with probe := trace.probe.step host event }
      | some (skPtr, link) => { trace.build skPtr link with probe := trace.probe.step host event } := by
  cases event with
  | tcpDestroySock skPtr => exact absurd rfl (living skPtr)
  | _ =>
    simp only [step]
    split <;> rfl

theorem kept_of_living (living : ∀ skPtr, event ≠ .tcpDestroySock skPtr) (kept : trace.Kept host event)
    (skPtr : SockPtr) (link : TcpLink) (builds : trace.probe.builds host event = some (skPtr, link)) :
    trace.built skPtr ⊆ [link] := by
  cases event with
  | tcpDestroySock skPtr => exact absurd rfl (living skPtr)
  | _ => exact kept skPtr link builds

/-- All that an event can do to a trace. -/
theorem step_cases (host : ByteOrder) (keyed : trace.probe.Keyed) (event : TcpEvent) :
    (∃ skPtr, event = .tcpDestroySock skPtr ∧
        trace.step host event = { trace.destroy skPtr with probe := trace.probe.tcpDestroySock skPtr }) ∨
      (∃ after, TcpProbe.Extends trace.probe after none ∧ after.Keyed ∧
        trace.step host event = { trace with probe := after }) ∨
      ∃ after skPtr link, TcpProbe.Touches trace.probe after (some skPtr) (some link) ∧ after.Keyed ∧
        (trace.Kept host event → trace.built skPtr ⊆ [link]) ∧
        trace.step host event = { trace.build skPtr link with probe := after } := by
  by_cases destroys : ∃ skPtr, event = .tcpDestroySock skPtr
  · obtain ⟨skPtr, rfl⟩ := destroys
    exact .inl ⟨skPtr, rfl, rfl⟩
  · have living (skPtr : SockPtr) : event ≠ .tcpDestroySock skPtr := fun same => destroys ⟨skPtr, same⟩
    have touches := TcpProbe.step_touches host keyed event living
    have after := TcpProbe.step_keyed host keyed event
    cases entry : trace.probe.entryOf host event with
    | none =>
        have builds : trace.probe.builds host event = none := by
          cases socket : event.socket <;> simp [TcpProbe.builds, entry, socket]
        rw [entry] at touches
        refine .inr (.inl ⟨_, touches.toExtends, after, ?_⟩)
        rw [step_of_living living, builds]
    | some link =>
        obtain ⟨skPtr, socket⟩ := TcpProbe.socket_of_entry entry
        have builds : trace.probe.builds host event = some (skPtr, link) := by
          simp [TcpProbe.builds, entry, socket]
        rw [entry, socket] at touches
        refine .inr (.inr ⟨_, skPtr, link, touches, after, fun kept => ?_, ?_⟩)
        · exact kept_of_living living kept skPtr link builds
        · rw [step_of_living living, builds]

/-- Every entry has one living owner, which has no other. -/
structure Owned (trace : Lifetime) : Prop where
  keyed : trace.probe.Keyed
  gone : trace.gone = []
  alone : ∀ skPtr, (trace.built skPtr).length ≤ 1
  living : ∀ skPtr, trace.built skPtr ≠ [] → (trace.probe.sockMap.lookup skPtr).isSome
  owner : ∀ link, (trace.probe.linkMap.lookup link).isSome → ∃ skPtr, link ∈ trace.built skPtr

theorem start_owned (fdMap : BoundedMap UInt32 TcpFdInfo tcpFdMax) (args : Option TcpArgs)
    (tasks : UInt32 → Bool) : (start fdMap args tasks).Owned where
  keyed link metrics found := by cases found
  gone := rfl
  alone _ := Nat.zero_le 1
  living _ nonempty := absurd rfl nonempty
  owner link found := by cases found

theorem Owned.destroy (owned : trace.Owned) {skPtr : SockPtr} (kept : trace.Kept host (.tcpDestroySock skPtr)) :
    (trace.step host (.tcpDestroySock skPtr)).Owned where
  keyed := owned.keyed
  gone := by
    have none : trace.built skPtr = [] := kept
    simp [step, Lifetime.destroy, none, owned.gone]
  alone other := by
    simp only [step, Lifetime.destroy, Function.update_apply]
    split
    case isTrue => exact Nat.zero_le 1
    case isFalse => exact owned.alone other
  living other nonempty := by
    simp only [step, Lifetime.destroy, Function.update_apply] at nonempty
    split at nonempty
    case isTrue => exact absurd rfl nonempty
    case isFalse different =>
        simp only [step, TcpProbe.step, TcpProbe.tcpDestroySock, TcpProbe.deleteSockObj,
          BoundedMap.lookup_delete_of_ne different]
        exact owned.living other nonempty
  owner link found := by
    obtain ⟨other, built⟩ := owned.owner link found
    have different : other ≠ skPtr := by
      intro same
      have none : trace.built skPtr = [] := kept
      rw [same, none] at built
      cases built
    exact ⟨other, by simpa only [step, Lifetime.destroy, Function.update_of_ne different] using built⟩

theorem Owned.build (owned : trace.Owned) {skPtr : SockPtr} {link : TcpLink} {after : TcpProbe}
    (touches : TcpProbe.Touches trace.probe after (some skPtr) (some link)) (keyed : after.Keyed)
    (kept : trace.built skPtr ⊆ [link]) :
    ({ trace.build skPtr link with probe := after } : Lifetime).Owned where
  keyed := keyed
  gone := by simp [Lifetime.build, owned.gone]
  alone other := by
    simp only [Lifetime.build, Function.update_apply]
    split
    case isTrue =>
        cases built : trace.built skPtr with
        | nil => simp
        | cons first rest =>
            have one := owned.alone skPtr
            have member := kept (by rw [built]; exact List.mem_cons_self)
            rw [built, List.length_cons] at one
            have none : rest = [] := List.length_eq_zero_iff.mp (by omega)
            have same : first = link := List.mem_singleton.mp member
            simp [none, same]
    case isFalse => exact owned.alone other
  living other nonempty := by
    simp only [Lifetime.build, Function.update_apply] at nonempty
    split at nonempty
    case isTrue same =>
        subst same
        exact touches.owner other link rfl rfl
    case isFalse => exact touches.sockets other (owned.living other nonempty)
  owner other found := by
    rcases (touches.links other).mp found with before | own
    · obtain ⟨holder, built⟩ := owned.owner other before
      refine ⟨holder, ?_⟩
      simp only [Lifetime.build, Function.update_apply]
      split
      case isTrue same =>
          subst same
          exact List.mem_insert_of_mem built
      case isFalse => exact built
    · cases own
      exact ⟨skPtr, by simp [Lifetime.build]⟩

theorem Owned.pass (owned : trace.Owned) {after : TcpProbe} (touches : TcpProbe.Extends trace.probe after none)
    (keyed : after.Keyed) : ({ trace with probe := after } : Lifetime).Owned where
  keyed := keyed
  gone := owned.gone
  alone := owned.alone
  living other nonempty := touches.sockets other (owned.living other nonempty)
  owner link found := by
    rcases (touches.links link).mp found with before | absent
    · exact owned.owner link before
    · cases absent

theorem Owned.step (owned : trace.Owned) (kept : trace.Kept host event) : (trace.step host event).Owned := by
  rcases step_cases host owned.keyed event with ⟨skPtr, rfl, _⟩ | ⟨after, touches, keyed, equal⟩ |
    ⟨after, skPtr, link, touches, keyed, same, equal⟩
  · exact owned.destroy kept
  · rw [equal]
    exact owned.pass touches keyed
  · rw [equal]
    exact owned.build touches keyed (same kept)

/-- Owners of one key each are no fewer than the keys. -/
theorem Owned.bounded (owned : trace.Owned) : trace.Bounded where
  gone link member := by
    rw [owned.gone] at member
    cases member
  entries := by
    have among : trace.probe.linkMap.entries.map Prod.fst ⊆
        (trace.probe.sockMap.entries.map Prod.fst).flatMap trace.built := by
      intro link member
      have present : (trace.probe.linkMap.lookup link).isSome := by
        rw [BoundedMap.isSome_lookup_iff]
        exact member
      obtain ⟨skPtr, built⟩ := owned.owner link present
      have living := owned.living skPtr (List.ne_nil_of_mem built)
      rw [BoundedMap.isSome_lookup_iff] at living
      exact List.mem_flatMap.mpr ⟨skPtr, living, built⟩
    have keys : trace.probe.linkMap.entries.length ≤
        ((trace.probe.sockMap.entries.map Prod.fst).flatMap trace.built).length := by
      simpa using (trace.probe.linkMap.distinct.subperm among).length_le
    have alone (sockets : List SockPtr) : (sockets.flatMap trace.built).length ≤ sockets.length := by
      induction sockets with
      | nil => exact Nat.le_refl 0
      | cons skPtr rest ih =>
          have one := owned.alone skPtr
          rw [List.flatMap_cons, List.length_append, List.length_cons]
          omega
    exact keys.trans (by simpa using alone (trace.probe.sockMap.entries.map Prod.fst))

/-- What no event takes back: an entry, once a hook got it. -/
structure Remains (trace : Lifetime) : Prop where
  keyed : trace.probe.Keyed
  entry : ∀ skPtr, ∀ link ∈ trace.built skPtr, (trace.probe.linkMap.lookup link).isSome

theorem start_remains (fdMap : BoundedMap UInt32 TcpFdInfo tcpFdMax) (args : Option TcpArgs)
    (tasks : UInt32 → Bool) : (start fdMap args tasks).Remains where
  keyed link metrics found := by cases found
  entry skPtr link member := by cases member

theorem Remains.step (remains : trace.Remains) (host : ByteOrder) (event : TcpEvent) :
    (trace.step host event).Remains := by
  refine ⟨TcpProbe.step_keyed host remains.keyed event, ?_⟩
  intro owner link member
  rcases step_cases host remains.keyed event with ⟨skPtr, rfl, equal⟩ | ⟨after, touches, keyed, equal⟩ |
    ⟨after, skPtr, own, touches, keyed, _, equal⟩ <;> rw [equal] at member ⊢
  · simp only [destroy, Function.update_apply] at member
    split at member
    case isTrue => cases member
    case isFalse => exact remains.entry owner link member
  · exact (touches.links link).mpr (.inl (remains.entry owner link member))
  · apply (touches.links link).mpr
    simp only [build, Function.update_apply] at member
    split at member
    case isTrue =>
        rcases List.mem_insert_iff.mp member with same | before
        · exact .inr (by rw [same])
        · exact .inl (remains.entry skPtr link before)
    case isFalse => exact .inl (remains.entry owner link member)

/-- The condition on destruction is exact. -/
theorem destroyed_remains (host : ByteOrder) (fdMap : BoundedMap UInt32 TcpFdInfo tcpFdMax) (args : Option TcpArgs)
    (tasks : UInt32 → Bool) {events : List TcpEvent} {last : Lifetime}
    (run : Runs (fun trace event after => trace.step host event = after) (start fdMap args tasks) events last)
    {skPtr : SockPtr} (built : last.built skPtr ≠ []) :
    ¬ (last.step host (.tcpDestroySock skPtr)).Bounded := by
  have remains : last.Remains := by
    apply run.invariant Remains
    · exact start_remains fdMap args tasks
    · intro trace event after taken remains
      subst after
      exact remains.step host event
  intro bounded
  obtain ⟨link, member⟩ := List.exists_mem_of_ne_nil _ built
  have absent := bounded.gone link (List.mem_append_left last.gone member)
  have present : (last.probe.linkMap.lookup link).isSome := remains.entry skPtr link member
  have same : (last.step host (.tcpDestroySock skPtr)).probe.linkMap = last.probe.linkMap := rfl
  rw [same] at absent
  rw [absent] at present
  cases present

theorem links_bounded (host : ByteOrder) (fdMap : BoundedMap UInt32 TcpFdInfo tcpFdMax) (args : Option TcpArgs)
    (tasks : UInt32 → Bool) {events : List TcpEvent} {last : Lifetime}
    (run : Runs (fun trace event after => trace.Kept host event ∧ trace.step host event = after)
      (start fdMap args tasks) events last) :
    last.Bounded := by
  have owned : last.Owned := by
    apply run.invariant Owned (start_owned fdMap args tasks)
    intro trace event after taken owned
    obtain ⟨kept, rfl⟩ := taken
    exact owned.step kept
  exact owned.bounded

theorem kept_of_fresh (fresh : ∀ skPtr, trace.built skPtr = []) : trace.Kept host event := by
  cases event with
  | tcpDestroySock skPtr => exact fresh skPtr
  | _ =>
    intro skPtr link _
    rw [fresh skPtr]
    exact List.nil_subset _

/-- The socket at address 1, in a state, with the process 7 running. -/
def contextIn (skState : UInt8) : HookContext where
  skPtr := 1
  sk := { skState, skFamily := afInet, skRcvSaddr := 1, skDaddr := 2, skNum := 33000, skDport := 80 }
  tgid := 7
  sockByFd := fun _ => 0
  createdAt := 0
  readAt := 0
  reportedAt := 0

def cportArgs : TcpArgs := { period := 5000000000, cportFlag := 1, filterByTask := 0, filterByTgid := 0 }

def opened : List TcpEvent := [.tcpSetState (contextIn 2) tcpEstablished, .tcpSendmsg (contextIn 1) 10]

def closed : List TcpEvent := opened ++ [.tcpSetState (contextIn 1) tcpClose, .tcpDestroySock 1]

theorem links_outlive_sockets :
    ¬ ∀ (events : List TcpEvent) (last : Lifetime),
      Runs (fun trace event after => trace.step .little event = after)
        (start .empty (some cportArgs) fun _ => false) events last → last.Bounded := by
  intro bounded
  have last := bounded closed _ (Runs.foldl (step .little) _ closed)
  have nothing := last.gone
  revert nothing
  decide +kernel

theorem kept_of_same {skPtr : SockPtr} {link : TcpLink} (builds : trace.probe.builds host event = some (skPtr, link))
    (same : trace.built skPtr = [link]) : trace.Kept host event := by
  cases event with
  | tcpDestroySock _ => cases builds
  | _ =>
    intro other key again
    rw [builds] at again
    cases again
    rw [same]
    exact List.Subset.refl _

/-- The key of the connection on a little-endian host. -/
def openedLink : TcpLink :=
  { tgid := 7, cIp := .ip 1, sIp := .ip 2, sPort := 20480, cPort := 59520, family := afInet, cFlag := 1, role := linkRoleClient }

/-- The connection is used again, and a socket that was never used goes. -/
def reused : List TcpEvent := opened ++ [.tcpSendmsg (contextIn 1) 5, .tcpDestroySock 2]

theorem links_bounded_reused : (reused.foldl (step .little) (start .empty (some cportArgs) fun _ => false)).Bounded := by
  let first := start .empty (some cportArgs) fun _ => false
  let second := first.step .little (.tcpSetState (contextIn 2) tcpEstablished)
  let third := second.step .little (.tcpSendmsg (contextIn 1) 10)
  let fourth := third.step .little (.tcpSendmsg (contextIn 1) 5)
  have created : first.Kept .little (.tcpSetState (contextIn 2) tcpEstablished) := kept_of_fresh fun _ => rfl
  have sent : second.Kept .little (.tcpSendmsg (contextIn 1) 10) := kept_of_fresh fun _ => rfl
  have again : third.Kept .little (.tcpSendmsg (contextIn 1) 5) := by
    have builds : third.probe.builds .little (.tcpSendmsg (contextIn 1) 5) = some (1, openedLink) := by decide +kernel
    exact kept_of_same builds (by decide +kernel)
  have unused : fourth.Kept .little (.tcpDestroySock 2) := by
    change fourth.built 2 = []
    decide +kernel
  have run : Runs (fun trace event after => trace.Kept .little event ∧ trace.step .little event = after) first reused
      (fourth.step .little (.tcpDestroySock 2)) :=
    .next (.next (.next (.next .start ⟨created, Eq.refl second⟩) ⟨sent, Eq.refl third⟩) ⟨again, Eq.refl fourth⟩) ⟨unused, rfl⟩
  exact links_bounded .little .empty (some cportArgs) (fun _ => false) run

end Lifetime

end GalaGopher.Ebpf
