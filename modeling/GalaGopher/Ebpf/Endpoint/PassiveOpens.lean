import GalaGopher.Data.Runs
import GalaGopher.Ebpf.Endpoint.Room
import Mathlib.Algebra.BigOperators.Group.Finset.Piecewise
import Mathlib.Data.Finset.Option

namespace GalaGopher.Ebpf.Endpoint

open Data

/-- What happened on a listener so far. -/
structure Opens where
  /-- The connections established, also before the probe was loaded. -/
  established : Nat
  /-- The children created while the listener was tracked. -/
  created : Nat := 0
  /-- The passive opens counted where an accept was entered. -/
  accepted : Nat := 0
  /-- The objects of the listener. -/
  keys : Finset Key := ∅

/-- The event is the creation of a child socket. -/
def Event.creates (listener : SockPtr) : Event → Bool
  | .tcpCreateOpenreqChild newSk (some context) => newSk ∧ context.skPtr = listener
  | _ => false

/-- The event is the entry of an accept on the listener. -/
def Event.accepts (listener : SockPtr) : Event → Bool
  | .sysAccept4 context _ _ => context.skPtr = listener
  | _ => false

namespace Probe

def tracked (probe : Probe) (listener : SockPtr) : Bool := (probe.endpointMap.lookup listener).isSome

/-- The hook of the event asks for the object of the listener. -/
def onSocket (probe : Probe) (listener : SockPtr) (event : Event) : Bool :=
  (probe.call event).any fun call => call.context.skPtr = listener

def opensAfter (probe : Probe) (listener : SockPtr) (opens : Opens) (event : Event) : Opens where
  established := opens.established + if event.creates listener then 1 else 0
  created := opens.created + if event.creates listener ∧ probe.tracked listener then 1 else 0
  accepted := opens.accepted + if event.accepts listener ∧ (probe.objectOf event).isSome then 1 else 0
  keys := if probe.onSocket listener event then opens.keys ∪ (probe.objectOf event).toFinset else opens.keys

/-- The passive opens of all objects of the listener, reported and held. -/
def passiveOpens (probe : Probe) (opens : Opens) : Nat := opens.keys.sum fun key => probe.total key .passiveOpens

/-- Every creation is counted, and every count is of one connection. -/
def CountedOnce (probe : Probe) (opens : Opens) : Prop :=
  opens.created ≤ probe.passiveOpens opens ∧ probe.passiveOpens opens ≤ opens.established

instance (probe : Probe) (opens : Opens) : Decidable (probe.CountedOnce opens) := inferInstanceAs (Decidable (_ ∧ _))

/-- The listener with its history after one event. -/
def follow (listener : SockPtr) (state : Probe × Opens) (event : Event) : Probe × Opens :=
  (state.1.step event, state.1.opensAfter listener state.2 event)

/-- An accept is counted for a connection that was established untracked. -/
def Backed (listener : SockPtr) (state : Probe × Opens) (event : Event) : Prop :=
  event.accepts listener → (state.1.objectOf event).isSome →
    state.2.accepted + state.2.created < state.2.established

/-- Passive opens go to objects of one listener, and there is room for them. -/
structure Apart (listener : SockPtr) (state : Probe × Opens) (event : Event) : Prop where
  -- an object that becomes the listener's has counted for no other
  own : ∀ key, state.1.onSocket listener event → state.1.askedKey event = some key → key ∉ state.2.keys →
    state.1.total key .passiveOpens = 0
  others : ∀ key, ¬ state.1.onSocket listener event → state.1.askedKey event = some key →
    event.increment .passiveOpens ≠ 0 → key ∉ state.2.keys
  room : event.creates listener → state.1.tracked listener → ∃ key, state.1.askedKey event = some key ∧
    ((state.1.objects.lookup key).isSome ∨ state.1.objects.count key.type < endpointStatMax)
  width : ∀ key, state.1.askedKey event = some key →
    state.1.held key .passiveOpens + event.increment .passiveOpens < 2 ^ 64

variable {probe : Probe} {opens : Opens} {listener : SockPtr} {event : Event} {key : Key}

/-- The passive opens that the event counts on the listener. -/
def counted (probe : Probe) (listener : SockPtr) (event : Event) : Nat :=
  if probe.onSocket listener event ∧ (probe.objectOf event).isSome then event.increment .passiveOpens else 0

theorem total_after (keyed : probe.Keyed) (apart : Apart listener (probe, opens) event) (key : Key) :
    (probe.step event).total key .passiveOpens =
      probe.total key .passiveOpens + if probe.objectOf event = some key then event.increment .passiveOpens else 0 := by
  have counts := step_counts keyed event
  split
  case isTrue returned =>
      have small := apart.width key (objectOf_asked keyed returned)
      rw [counts.own key .passiveOpens returned, Nat.mod_eq_of_lt small, ← Nat.add_assoc]
      rfl
  case isFalse missed => exact counts.others key .passiveOpens missed

theorem passiveOpens_after (keyed : probe.Keyed) (apart : Apart listener (probe, opens) event) :
    (probe.step event).passiveOpens (probe.opensAfter listener opens event) =
      probe.passiveOpens opens + probe.counted listener event := by
  have totals := total_after keyed apart
  cases returned : probe.objectOf event with
  | none =>
      have keys : (probe.opensAfter listener opens event).keys = opens.keys := by
        simp [opensAfter, returned]
      have silent : probe.counted listener event = 0 := by simp [counted, returned]
      rw [passiveOpens, keys, silent]
      apply Finset.sum_congr rfl
      intro key _
      rw [totals, returned]
      simp
  | some key =>
      have asked := objectOf_asked keyed returned
      by_cases here : probe.onSocket listener event
      · have keys : (probe.opensAfter listener opens event).keys = insert key opens.keys := by
          simp [opensAfter, returned, here]
        have one : probe.counted listener event = event.increment .passiveOpens := by simp [counted, here, returned]
        have fresh : (insert key opens.keys).sum (fun key => probe.total key .passiveOpens) = probe.passiveOpens opens :=
          Finset.sum_insert_of_eq_zero_if_notMem (apart.own key here asked)
        have split (other : Key) : (probe.step event).total other .passiveOpens =
            probe.total other .passiveOpens + if other = key then event.increment .passiveOpens else 0 := by
          rw [totals, returned]
          by_cases same : other = key
          · rw [if_pos same, if_pos (by rw [same])]
          · rw [if_neg same, if_neg fun equal => same (Option.some_inj.mp equal).symm]
        rw [passiveOpens, keys, one, Finset.sum_congr rfl fun other _ => split other, Finset.sum_add_distrib, fresh,
          Finset.sum_ite_eq' _ _ fun _ => event.increment .passiveOpens, if_pos (Finset.mem_insert_self key opens.keys)]
      · have keys : (probe.opensAfter listener opens event).keys = opens.keys := by
          simp [opensAfter, here]
        have silent : probe.counted listener event = 0 := by simp [counted, here]
        rw [passiveOpens, keys, silent]
        apply Finset.sum_congr rfl
        intro other member
        rw [totals, returned]
        split
        case isTrue same =>
            cases same
            by_contra changed
            refine apart.others key here asked (fun zero => changed ?_) member
            rw [zero, Nat.add_zero]
        case isFalse => rfl

/-- A child is counted if its listener is tracked. -/
theorem counted_child {context : Context} {opens : Opens}
    (apart : Apart listener (probe, opens) (.tcpCreateOpenreqChild true (some context)))
    (same : context.skPtr = listener) :
    probe.counted listener (.tcpCreateOpenreqChild true (some context)) = if probe.tracked listener then 1 else 0 := by
  have creates : (Event.tcpCreateOpenreqChild true (some context)).creates listener := by simp [Event.creates, same]
  split
  case isTrue tracked =>
      obtain ⟨key, asked, room⟩ := apart.room creates tracked
      have returned := (objectOf_isSome_iff asked).mpr room
      have here : probe.onSocket listener (.tcpCreateOpenreqChild true (some context)) := by
        by_cases null : context.skPtr = 0
        · simp [askedKey, Probe.call, null] at asked
        · simpa [onSocket, Probe.call, null] using same
      rw [counted, if_pos ⟨here, returned⟩]
      rfl
  case isFalse untracked =>
      rw [counted, if_neg]
      rintro ⟨_, returned⟩
      obtain ⟨key, found⟩ := Option.isSome_iff_exists.mp returned
      obtain ⟨call, asks, got⟩ := Option.bind_eq_some_iff.mp found
      simp only [Probe.call] at asks
      split at asks
      case isTrue => cases asks
      case isFalse =>
          cases asks
          cases asked : probe.keyOf getTcpKey context with
          | none =>
              have missed := object_unasked asked
              simp only [Probe.prepared, Protocol.getKey, missed, reduceCtorEq] at got
          | some other =>
              obtain ⟨_, epv, present, _⟩ := keyOf_tracked asked
              apply untracked
              rw [tracked, ← same, present]
              rfl

/-- Only accepts and creations count passive opens. -/
theorem counted_eq (apart : Apart listener (probe, opens) event) : probe.counted listener event =
    (if event.accepts listener ∧ (probe.objectOf event).isSome then 1 else 0) +
      if event.creates listener ∧ probe.tracked listener then 1 else 0 := by
  cases event with
  | sysAccept4 context fd task =>
      have uncreated : (Event.sysAccept4 context fd task).creates listener = false := rfl
      simp only [uncreated, Bool.false_eq_true, false_and, if_false, Nat.add_zero]
      by_cases first : probe.acceptsFirst context fd task
      · simp [counted, onSocket, Probe.call, first, Event.accepts, Event.increment]
      · simp [counted, objectOf, Probe.call, first]
  | tcpCreateOpenreqChild newSk stashed =>
      have unaccepted : (Event.tcpCreateOpenreqChild newSk stashed).accepts listener = false := rfl
      simp only [unaccepted, Bool.false_eq_true, false_and, if_false, Nat.zero_add]
      cases stashed with
      | none => simp [counted, onSocket, Probe.call, Event.creates]
      | some context =>
          cases newSk with
          | false => simp [counted, Event.increment, Event.creates]
          | true =>
              by_cases same : context.skPtr = listener
              · simp [counted_child apart same, Event.creates, same]
              · have elsewhere : probe.onSocket listener (.tcpCreateOpenreqChild true (some context)) = false := by
                  simp only [onSocket, Probe.call]
                  split
                  case isTrue => rfl
                  case isFalse => simp [same]
                simp [counted, elsewhere, Event.creates, same]
  | sockRelease _ | inetListen _ | tcpConnect _ _ | tcpConnRequest _ | tcpReqErr _ _ | tcpCheckReq _ _
  | tcpRetransmitSynack _ | inetBind _ _ _ | udpSendmsg _ _ | udpRecvmsg _ _ | udpFailQueueRcvSkb _ _
  | udpInitSock _ | setArgs _ | setTasks _ | loadListenFd _ =>
      simp [counted, Event.increment, Event.accepts, Event.creates]

/-- The counts so far are those of accepts and creations, one for each. -/
structure Balanced (probe : Probe) (opens : Opens) : Prop where
  keyed : probe.Keyed
  sum : probe.passiveOpens opens = opens.accepted + opens.created
  bound : opens.accepted + opens.created ≤ opens.established

theorem Balanced.countedOnce (balanced : Balanced probe opens) : probe.CountedOnce opens := by
  rw [CountedOnce, balanced.sum]
  exact ⟨Nat.le_add_left .., balanced.bound⟩

theorem follow_sum (keyed : probe.Keyed) (sum : probe.passiveOpens opens = opens.accepted + opens.created)
    (apart : Apart listener (probe, opens) event) :
    (probe.step event).passiveOpens (probe.opensAfter listener opens event) =
      (probe.opensAfter listener opens event).accepted + (probe.opensAfter listener opens event).created := by
  rw [passiveOpens_after keyed apart, sum, counted_eq apart]
  simp only [opensAfter]
  omega

theorem follow_balanced (balanced : Balanced probe opens) (apart : Apart listener (probe, opens) event)
    (backed : Backed listener (probe, opens) event) :
    Balanced (probe.step event) (probe.opensAfter listener opens event) where
  keyed := (step_counts balanced.keyed event).keyed
  sum := follow_sum balanced.keyed balanced.sum apart
  bound := by
    have bound := balanced.bound
    have creations : (if event.creates listener ∧ probe.tracked listener then 1 else 0) ≤
        if event.creates listener then 1 else 0 := by
      split
      case isTrue both => rw [if_pos both.1]
      case isFalse => exact Nat.zero_le _
    simp only [opensAfter]
    by_cases accepted : event.accepts listener ∧ (probe.objectOf event).isSome
    · have fewer : opens.accepted + opens.created < opens.established := backed accepted.1 accepted.2
      rw [if_pos accepted]
      omega
    · rw [if_neg accepted]
      omega

theorem accepts_not_creates (accepts : event.accepts listener) : event.creates listener = false := by
  cases event <;> first | rfl | cases accepts

theorem unbacked_overcounts (balanced : Balanced probe opens) (apart : Apart listener (probe, opens) event)
    (unbacked : ¬ Backed listener (probe, opens) event) :
    ¬ (probe.step event).CountedOnce (probe.opensAfter listener opens event) := by
  obtain ⟨accepts, rest⟩ := Classical.not_imp.mp unbacked
  obtain ⟨returned, exhausted⟩ := Classical.not_imp.mp rest
  have full : ¬ opens.accepted + opens.created < opens.established := exhausted
  rw [CountedOnce, follow_sum balanced.keyed balanced.sum apart]
  simp only [opensAfter, accepts, returned, accepts_not_creates accepts]
  simp only [Bool.false_eq_true, false_and, and_self, if_true, if_false, Nat.add_zero]
  omega

/-- The states of a run, with what happened on the listener. -/
def Followed (listener : SockPtr) (start : Probe × Opens) (events : List Event) (holds : Probe → Opens → Prop) : Prop :=
  ∀ count, let state := (events.take count).foldl (follow listener) start
    holds state.1 state.2

theorem followed_cons {start : Probe × Opens} {rest : List Event} {holds : Probe → Opens → Prop} :
    Followed listener start (event :: rest) holds ↔
      holds start.1 start.2 ∧ Followed listener (follow listener start event) rest holds := by
  refine ⟨fun followed => ⟨followed 0, fun count => followed (count + 1)⟩, fun both count => ?_⟩
  cases count with
  | zero => exact both.1
  | succ count => exact both.2 count

theorem followed_iff (balanced : Balanced probe opens) (events : List Event)
    (apart : Allows (follow listener) (Apart listener) (probe, opens) events) :
    Followed listener (probe, opens) events CountedOnce ↔
      Allows (follow listener) (Backed listener) (probe, opens) events := by
  induction events generalizing probe opens with
  | nil =>
      refine ⟨fun _ => trivial, fun _ count => ?_⟩
      rw [List.take_nil]
      exact balanced.countedOnce
  | cons event rest ih =>
      rw [followed_cons, and_iff_right balanced.countedOnce, Allows]
      by_cases backed : Backed listener (probe, opens) event
      · rw [and_iff_right backed]
        exact ih (follow_balanced balanced apart.1 backed) apart.2
      · refine ⟨fun followed => absurd (followed 0) ?_, fun both => absurd both.1 backed⟩
        exact unbacked_overcounts balanced apart.1 backed

theorem loaded_balanced (listenSockfdMap : BoundedMap ListenSockfdKey Int32 listenFdMax) (args : Option Args)
    (tasks : UInt32 → Bool) (established : Nat) : Balanced { listenSockfdMap, args, tasks } { established } where
  keyed := loaded_keyed .empty listenSockfdMap args tasks
  sum := rfl
  bound := Nat.zero_le established

/-- A listener with connections from before the probe was loaded. -/
theorem passive_opens_counted_once (listener : SockPtr) (established : Nat)
    (listenSockfdMap : BoundedMap ListenSockfdKey Int32 listenFdMax) (args : Option Args) (tasks : UInt32 → Bool)
    (events : List Event)
    (apart : Allows (follow listener) (Apart listener) ({ listenSockfdMap, args, tasks }, { established }) events) :
    Followed listener ({ listenSockfdMap, args, tasks }, { established }) events CountedOnce ↔
      Allows (follow listener) (Backed listener) ({ listenSockfdMap, args, tasks }, { established }) events :=
  followed_iff (loaded_balanced listenSockfdMap args tasks established) events apart

/-- A process that was listening on port 80 when the probe was loaded. -/
def oldListener : BoundedMap ListenSockfdKey Int32 listenFdMax :=
  ⟨[({ tgid := 1, fd := 3 }, 3)], by simp, show 1 ≤ listenFdMax by decide⟩

def firstAccept : Event := .sysAccept4 { skPtr := 5, sk := { skNum := 80 }, tgid := 1 } 3 true

def childCreated : Event := .tcpCreateOpenreqChild true (some { skPtr := 5, sk := { skNum := 80 } })

/-- A connection of before is accepted, and another one comes. -/
theorem passive_opens_counted_once_backed :
    Followed 5 ({ listenSockfdMap := oldListener }, { established := 1 }) [firstAccept, childCreated] CountedOnce := by
  have asked : askedKey { listenSockfdMap := oldListener } firstAccept = some (.tcpListen 1 80) := by rfl
  have apart : Apart 5 ({ listenSockfdMap := oldListener }, { established := 1 }) firstAccept := by
    refine ⟨?_, ?_, ?_, ?_⟩
    · intro key _ here _
      rw [asked] at here
      cases here
      rfl
    · intro key elsewhere
      exact absurd (by rfl) elsewhere
    · intro creates
      cases creates
    · intro key here
      rw [asked] at here
      cases here
      decide
  let after := follow 5 ({ listenSockfdMap := oldListener }, { established := 1 }) firstAccept
  have askedAgain : askedKey after.1 childCreated = some (.tcpListen 1 80) := by rfl
  have apartAgain : Apart 5 after childCreated := by
    refine ⟨?_, ?_, ?_, ?_⟩
    · intro key _ here absent
      rw [askedAgain] at here
      cases here
      exact absurd (by decide) absent
    · intro key elsewhere
      exact absurd (by rfl) elsewhere
    · intro _ _
      exact ⟨_, askedAgain, .inl (by decide)⟩
    · intro key here
      rw [askedAgain] at here
      cases here
      decide
  have backed : Backed 5 ({ listenSockfdMap := oldListener }, { established := 1 }) firstAccept := fun _ _ => by decide
  have backedAgain : Backed 5 after childCreated := fun accepts => by cases accepts
  exact (passive_opens_counted_once 5 1 oldListener none (fun _ => false) [firstAccept, childCreated]
    ⟨apart, apartAgain, trivial⟩).mpr ⟨backed, backedAgain, trivial⟩

/-- An accept that waits is counted, and then the child it was waiting for. -/
theorem waiting_accept_counts_twice :
    let state := [firstAccept, childCreated].foldl (follow 5) ({ listenSockfdMap := oldListener }, { established := 0 })
    state.1.passiveOpens state.2 = 2 ∧ state.2.established = 1 ∧ ¬ state.1.CountedOnce state.2 := by
  decide

end Probe

end GalaGopher.Ebpf.Endpoint
