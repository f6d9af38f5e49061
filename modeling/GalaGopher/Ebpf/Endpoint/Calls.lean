import GalaGopher.Ebpf.Endpoint.Objects

namespace GalaGopher.Ebpf.Endpoint

open Data

/-- The two families of hooks. -/
inductive Protocol where
  | tcp
  | udp
deriving DecidableEq

def Protocol.getKey : Protocol → SkType → Sock → UInt32 → Option Key
  | .tcp => getTcpKey
  | .udp => getUdpKey

def SkType.protocol : SkType → Protocol
  | .listenTcp | .clientTcp => .tcp
  | .listenUdp | .clientUdp => .udp

/-- How a hook asks for an object, and what it does with it. -/
structure Call where
  protocol : Protocol
  context : Context
  change : Val → Val := id
  reports : Bool → Bool := fun _ => true

/-- What an event adds to the counters of the object it gets. -/
def Event.increment (event : Event) (stat : Stat) : Nat :=
  match event, stat with
  | .sysAccept4 .., .passiveOpens => 1
  | .tcpConnect ret _, .activeOpens => if ret = 0 then 1 else 0
  | .tcpConnect ret _, .activeFails => if ret = 0 then 0 else 1
  | .tcpConnRequest context, .acceptOverflow => if skAcceptqIsFull context.sk then 1 else 0
  | .tcpConnRequest context, .synOverflow => if skSynqIsFull context.sk then 1 else 0
  | .tcpReqErr .., .listenDrops => 1
  | .tcpCreateOpenreqChild newSk _, .passiveOpens => if newSk then 1 else 0
  | .tcpCreateOpenreqChild newSk _, .listenDrops => if newSk then 0 else 1
  | .tcpCheckReq newSk _, .passiveFails => if newSk then 0 else 1
  | .tcpRetransmitSynack _, .retransSynack => 1
  | .udpSendmsg _ len, .udpSends => len.toNat
  | .udpRecvmsg _ len, .udpRcvs => len.toNat
  | .udpFailQueueRcvSkb .., .queRcvFailed => 1
  | _, _ => 0

namespace Probe

/-- The tests in front of the first accept of a listener. -/
def acceptsFirst (probe : Probe) (context : Context) (fd : Int32) (task : Bool) : Bool :=
  (probe.listenSockfdMap.lookup { tgid := context.tgid.toInt32, fd }).isSome && task && context.skPtr ≠ 0

/-- The maps as a hook leaves them before it asks for an object. -/
def prepared (probe : Probe) : Event → Probe
  | .sockRelease skPtr => probe.deleteSockMap skPtr
  | .inetListen context => probe.createSockMap context.skPtr .listenTcp context.tgid
  | .sysAccept4 context fd task =>
      if probe.acceptsFirst context fd task then
        { probe with
          listenSockfdMap := probe.listenSockfdMap.delete { tgid := context.tgid.toInt32, fd }
          : Probe }.createSockMap context.skPtr .listenTcp context.tgid
      else
        probe
  | .tcpConnect _ (some context) =>
      if context.skPtr = 0 then probe else probe.createSockMap context.skPtr .clientTcp context.tgid
  | .inetBind ret dgram (some context) =>
      if ret = 0 ∧ context.skPtr ≠ 0 ∧ dgram then probe.createSockMap context.skPtr .listenUdp context.tgid
      else probe
  | .udpInitSock context => probe.createSockMap context.skPtr .clientUdp context.tgid
  | .setArgs args => { probe with args }
  | .setTasks tasks => { probe with tasks }
  | .loadListenFd tlps => probe.loadListenFd tlps
  | .tcpConnect _ none | .inetBind _ _ none | .tcpConnRequest _ | .tcpReqErr .. | .tcpCreateOpenreqChild ..
  | .tcpCheckReq .. | .tcpRetransmitSynack _ | .udpSendmsg .. | .udpRecvmsg .. | .udpFailQueueRcvSkb .. => probe

def call (probe : Probe) : Event → Option Call
  | .inetListen context => some { protocol := .tcp, context, reports := id }
  | .sysAccept4 context fd task =>
      if probe.acceptsFirst context fd task then
        some { protocol := .tcp, context, change := (·.count .passiveOpens 1) }
      else
        none
  | .tcpConnect ret (some context) =>
      if context.skPtr = 0 then none
      else
        let metric := if ret = 0 then Stat.activeOpens else Stat.activeFails
        some { protocol := .tcp, context, change := (·.count metric 1) }
  | .tcpConnRequest context =>
      let acceptqIsFull := skAcceptqIsFull context.sk
      let synqIsFull := skSynqIsFull context.sk
      let change (value : Val) : Val :=
        let value := if acceptqIsFull then value.count .acceptOverflow 1 else value
        if synqIsFull then value.count .synOverflow 1 else value
      some { protocol := .tcp, context, change, reports := fun _ => acceptqIsFull || synqIsFull }
  | .tcpReqErr context abort =>
      if abort then some { protocol := .tcp, context, change := (·.count .listenDrops 1) } else none
  | .tcpCreateOpenreqChild newSk (some context) =>
      if context.skPtr = 0 then none
      else
        let metric := if newSk then Stat.passiveOpens else Stat.listenDrops
        some { protocol := .tcp, context, change := (·.count metric 1), reports := fun _ => false }
  | .tcpCheckReq newSk (some context) =>
      if context.skPtr = 0 then none
      else
        let change (value : Val) : Val := if newSk then value else value.count .passiveFails 1
        some { protocol := .tcp, context, change, reports := fun _ => false }
  | .tcpRetransmitSynack context =>
      some { protocol := .tcp, context, change := (·.count .retransSynack 1) }
  | .inetBind ret dgram (some context) =>
      if ret = 0 ∧ context.skPtr ≠ 0 ∧ dgram then some { protocol := .udp, context, reports := id } else none
  | .udpSendmsg context len => some { protocol := .udp, context, change := (·.count .udpSends len) }
  | .udpRecvmsg context len => some { protocol := .udp, context, change := (·.count .udpRcvs len) }
  | .udpFailQueueRcvSkb rc context =>
      let change (value : Val) : Val := { value.count .queRcvFailed 1 with udpErrCode := rc }
      some { protocol := .udp, context, change, reports := fun _ => false }
  | .udpInitSock context => some { protocol := .udp, context, reports := id }
  | .tcpConnect _ none | .tcpCreateOpenreqChild _ none | .tcpCheckReq _ none | .inetBind _ _ none
  | .sockRelease _ | .setArgs _ | .setTasks _ | .loadListenFd _ => none

/-- A hook's part after the object is asked for. -/
def answer (probe : Probe) : Option Call → Probe
  | none => probe
  | some call => probe.withVal call.protocol.getKey call.context call.change call.reports

theorem step_eq (probe : Probe) (event : Event) :
    probe.step event = (probe.prepared event).answer (probe.call event) := by
  cases event with
  | sockRelease skPtr => rfl
  | inetListen context => rfl
  | sysAccept4 context fd task =>
      simp only [step, sysAccept4, prepared, call, acceptsFirst]
      rcases Option.eq_none_or_eq_some (probe.listenSockfdMap.lookup { tgid := context.tgid.toInt32, fd }) with
        found | ⟨value, found⟩
      case inl => simp [found, answer]
      case inr =>
          cases task with
          | false => simp [found, answer]
          | true =>
              by_cases null : context.skPtr = 0
              · simp [found, null, answer]
              · simp [found, null, answer, countTcp, Protocol.getKey]
  | tcpConnect ret stashed =>
      cases stashed with
      | none => rfl
      | some context =>
          simp only [step, tcpConnect, prepared, call]
          by_cases null : context.skPtr = 0
          · simp [null, answer]
          · by_cases succeeded : ret = 0
            · simp [null, succeeded, answer, countTcp, Protocol.getKey]
            · simp [null, succeeded, answer, countTcp, Protocol.getKey]
  | tcpConnRequest context => rfl
  | tcpReqErr context abort => cases abort <;> rfl
  | tcpCreateOpenreqChild newSk stashed =>
      cases stashed with
      | none => rfl
      | some context =>
          simp only [step, tcpCreateOpenreqChild, prepared, call]
          split <;> rfl
  | tcpCheckReq newSk stashed =>
      cases stashed with
      | none => rfl
      | some context =>
          simp only [step, tcpCheckReq, prepared, call]
          split <;> rfl
  | tcpRetransmitSynack context => rfl
  | inetBind ret dgram stashed =>
      cases stashed with
      | none => rfl
      | some context =>
          simp only [step, inetBind, prepared, call]
          by_cases succeeded : ret = 0
          · by_cases null : context.skPtr = 0
            · simp [null, succeeded, answer]
            · cases dgram <;> simp [null, succeeded, answer, reportUdp, Protocol.getKey]
          · simp [succeeded, answer]
  | udpSendmsg context len => rfl
  | udpRecvmsg context len => rfl
  | udpFailQueueRcvSkb rc context => rfl
  | udpInitSock context => rfl
  | setArgs args => rfl
  | setTasks tasks => rfl
  | loadListenFd tlps => rfl

/-- The object that `get_tcp_val` or `get_udp_val` returns to the hook of an
event. -/
def objectOf (probe : Probe) (event : Event) : Option Key :=
  (probe.call event).bind fun call => (probe.prepared event).object call.protocol.getKey call.context

variable {probe : Probe} {event : Event} {call : Call} {key : Key}

theorem createSockMap_objects (probe : Probe) (skPtr : SockPtr) (type : SkType) (tgid : UInt32) :
    (probe.createSockMap skPtr type tgid).objects = probe.objects ∧
      (probe.createSockMap skPtr type tgid).output = probe.output := by
  unfold createSockMap
  split
  case isTrue => exact ⟨rfl, rfl⟩
  case isFalse => split <;> exact ⟨rfl, rfl⟩

/-- No object changes before one is asked for. -/
theorem prepared_objects (probe : Probe) (event : Event) :
    (probe.prepared event).objects = probe.objects ∧ (probe.prepared event).output = probe.output := by
  cases event with
  | inetListen context | udpInitSock context => exact createSockMap_objects ..
  | sysAccept4 context fd task =>
      simp only [prepared]
      split
      case isTrue => exact createSockMap_objects ..
      case isFalse => exact ⟨rfl, rfl⟩
  | tcpConnect ret stashed =>
      cases stashed with
      | none => exact ⟨rfl, rfl⟩
      | some context =>
          simp only [prepared]
          split
          case isTrue => exact ⟨rfl, rfl⟩
          case isFalse => exact createSockMap_objects ..
  | inetBind ret dgram stashed =>
      cases stashed with
      | none => exact ⟨rfl, rfl⟩
      | some context =>
          simp only [prepared]
          split
          case isTrue => exact createSockMap_objects ..
          case isFalse => exact ⟨rfl, rfl⟩
  | sockRelease _ | tcpConnRequest _ | tcpReqErr _ _ | tcpCreateOpenreqChild _ _ | tcpCheckReq _ _
  | tcpRetransmitSynack _ | udpSendmsg _ _ | udpRecvmsg _ _ | udpFailQueueRcvSkb _ _ | setArgs _ | setTasks _
  | loadListenFd _ => exact ⟨rfl, rfl⟩

/-- The sockets are settled before an object is asked for. -/
theorem step_socks (probe : Probe) (event : Event) : SameSocks (probe.prepared event) (probe.step event) := by
  rw [step_eq]
  cases probe.call event with
  | none => exact ⟨rfl, rfl, rfl, rfl⟩
  | some call => exact withVal_socks ..

theorem prepared_keyed (keyed : probe.Keyed) : (probe.prepared event).Keyed := by
  intro key value found
  rw [(probe.prepared_objects event).1] at found
  exact keyed key value found

end Probe

theorem Val.count_eq (value : Val) (metric stat : Stat) (delta : UInt64) :
    ((value.count metric delta).epStats stat).toNat =
      ((value.epStats stat).toNat + if stat = metric then delta.toNat else 0) % 2 ^ 64 := by
  have small := (value.epStats stat).toNat_lt
  simp only [count, Stats.add]
  split
  case isTrue => exact UInt64.toNat_add ..
  case isFalse => rw [Nat.add_zero, Nat.mod_eq_of_lt small]

/-- A value after the increments of an event. -/
structure Val.Added (before after : Val) (increment : Stat → Nat) : Prop where
  key : after.key = before.key
  stats : ∀ stat, (after.epStats stat).toNat = ((before.epStats stat).toNat + increment stat) % 2 ^ 64

theorem Val.added_none (value : Val) {increment : Stat → Nat} (nothing : ∀ stat, increment stat = 0) :
    Val.Added value value increment where
  key := rfl
  stats stat := by rw [nothing stat, Nat.add_zero, Nat.mod_eq_of_lt (value.epStats stat).toNat_lt]

theorem Val.added_count (value : Val) (metric : Stat) (delta : UInt64) {increment : Stat → Nat}
    (adds : ∀ stat, increment stat = if stat = metric then delta.toNat else 0) :
    Val.Added value (value.count metric delta) increment where
  key := rfl
  stats stat := by rw [adds, Val.count_eq]

/-- The change of a call adds what its event adds. -/
theorem Probe.call_change {probe : Probe} {event : Event} {call : Call} (asks : probe.call event = some call)
    (value : Val) : Val.Added value (call.change value) event.increment := by
  cases event with
  | sockRelease _ | setArgs _ | setTasks _ | loadListenFd _ => cases asks
  | inetListen context | udpInitSock context =>
      cases asks
      exact value.added_none fun stat => by cases stat <;> rfl
  | sysAccept4 context fd task =>
      simp only [Probe.call] at asks
      split at asks
      case isTrue =>
          cases asks
          exact value.added_count .passiveOpens 1 fun stat => by cases stat <;> rfl
      case isFalse => cases asks
  | tcpConnect ret stashed =>
      cases stashed with
      | none => cases asks
      | some context =>
          simp only [Probe.call] at asks
          split at asks
          case isTrue => cases asks
          case isFalse =>
              cases asks
              apply value.added_count
              intro stat
              by_cases succeeded : ret = 0
              · cases stat <;> simp [Event.increment, succeeded]
              · cases stat <;> simp [Event.increment, succeeded]
  | tcpConnRequest context =>
      cases asks
      refine ⟨?_, fun stat => ?_⟩
      · dsimp only
        split <;> split <;> rfl
      · have small := (value.epStats stat).toNat_lt
        have settled := Nat.mod_eq_of_lt small
        cases acceptq : skAcceptqIsFull context.sk <;> cases synq : skSynqIsFull context.sk <;>
          cases stat <;> simp [Event.increment, Val.count_eq, acceptq, synq, settled]
  | tcpReqErr context abort =>
      cases abort with
      | false => cases asks
      | true =>
          cases asks
          exact value.added_count .listenDrops 1 fun stat => by cases stat <;> rfl
  | tcpCreateOpenreqChild newSk stashed =>
      cases stashed with
      | none => cases asks
      | some context =>
          simp only [Probe.call] at asks
          split at asks
          case isTrue => cases asks
          case isFalse =>
              cases asks
              apply value.added_count
              intro stat
              cases newSk <;> cases stat <;> rfl
  | tcpCheckReq newSk stashed =>
      cases stashed with
      | none => cases asks
      | some context =>
          simp only [Probe.call] at asks
          split at asks
          case isTrue => cases asks
          case isFalse =>
              cases asks
              cases newSk with
              | false => exact value.added_count .passiveFails 1 fun stat => by cases stat <;> rfl
              | true => exact value.added_none fun stat => by cases stat <;> rfl
  | tcpRetransmitSynack context =>
      cases asks
      exact value.added_count .retransSynack 1 fun stat => by cases stat <;> rfl
  | inetBind ret dgram stashed =>
      cases stashed with
      | none => cases asks
      | some context =>
          simp only [Probe.call] at asks
          split at asks
          case isTrue =>
              cases asks
              exact value.added_none fun stat => by cases stat <;> rfl
          case isFalse => cases asks
  | udpSendmsg context len =>
      cases asks
      exact value.added_count .udpSends len fun stat => by cases stat <;> rfl
  | udpRecvmsg context len =>
      cases asks
      exact value.added_count .udpRcvs len fun stat => by cases stat <;> rfl
  | udpFailQueueRcvSkb rc context =>
      cases asks
      have counted := @Val.added_count value .queRcvFailed 1 (Event.udpFailQueueRcvSkb rc context).increment
        fun stat => by cases stat <;> rfl
      exact ⟨counted.key, counted.stats⟩

end GalaGopher.Ebpf.Endpoint
