import GalaGopher.Data.Runs
import GalaGopher.Ebpf.Endpoint.Conservation
import Mathlib.Data.Finset.Card
import Mathlib.Data.Finset.Dedup

namespace GalaGopher.Ebpf.Endpoint

open Data

/-- The keys of the objects of a kind. -/
def Objects.keys (objects : Objects) : SkType → List Key
  | .listenTcp => objects.listenSockMap.entries.map fun entry => .tcpListen entry.1.1 entry.1.2
  | .clientTcp => objects.connSockMap.entries.map fun entry => .tcpConnect entry.1.1 entry.1.2
  | .clientUdp => objects.udpSockMap.entries.map fun entry => .udpClient entry.1.1 entry.1.2
  | .listenUdp => objects.udpBindMap.entries.map fun entry => .udpServer entry.1.1 entry.1.2

/-- How many different keys of a kind there are. -/
def distinctKeys (keys : List Key) (kind : SkType) : Nat := (keys.filter fun key => key.type = kind).toFinset.card

namespace Probe

/-- The key of an event on a tracked socket. -/
def askedKey (probe : Probe) (event : Event) : Option Key :=
  (probe.call event).bind fun call => (probe.prepared event).keyOf call.protocol.getKey call.context

/-- An event on a tracked socket gets the object of its key. -/
def Answered (probe : Probe) (event : Event) : Prop :=
  ∀ key, probe.askedKey event = some key → probe.objectOf event = some key

/-- The keys of the events of a run on tracked sockets. -/
def askedKeys (probe : Probe) : List Event → List Key
  | [] => []
  | event :: rest => (probe.askedKey event).toList ++ (probe.step event).askedKeys rest

/-- The objects that there are. -/
def Holds (probe : Probe) (seen : List Key) : Prop := ∀ key, (probe.objects.lookup key).isSome ↔ key ∈ seen

end Probe

namespace Objects

variable {objects : Objects} {key : Key} {kind : SkType}

theorem keys_nodup (objects : Objects) (kind : SkType) : (objects.keys kind).Nodup := by
  have mapped {κ : Type} (map : BoundedMap κ Val endpointStatMax) (make : κ → Key)
      (injective : Function.Injective make) : (map.entries.map fun entry => make entry.1).Nodup := by
    have composed : (map.entries.map fun entry => make entry.1) = (map.entries.map Prod.fst).map make := by
      rw [List.map_map]
      rfl
    rw [composed]
    exact map.distinct.map injective
  cases kind with
  | listenTcp =>
      apply mapped objects.listenSockMap fun pair => Key.tcpListen pair.1 pair.2
      rintro ⟨_, _⟩ ⟨_, _⟩ same
      cases same
      rfl
  | clientTcp =>
      apply mapped objects.connSockMap fun pair => Key.tcpConnect pair.1 pair.2
      rintro ⟨_, _⟩ ⟨_, _⟩ same
      cases same
      rfl
  | clientUdp =>
      apply mapped objects.udpSockMap fun pair => Key.udpClient pair.1 pair.2
      rintro ⟨_, _⟩ ⟨_, _⟩ same
      cases same
      rfl
  | listenUdp =>
      apply mapped objects.udpBindMap fun pair => Key.udpServer pair.1 pair.2
      rintro ⟨_, _⟩ ⟨_, _⟩ same
      cases same
      rfl

theorem keys_length (objects : Objects) (kind : SkType) : (objects.keys kind).length = objects.count kind := by
  cases kind <;> simp [keys, count]

theorem mem_keys : key ∈ objects.keys kind ↔ key.type = kind ∧ (objects.lookup key).isSome := by
  cases kind <;> cases key <;> simp [keys, Key.type, lookup, BoundedMap.isSome_lookup_iff]

theorem count_le (objects : Objects) (kind : SkType) : objects.count kind ≤ endpointStatMax := by
  cases kind with
  | listenTcp => exact objects.listenSockMap.fits
  | clientTcp => exact objects.connSockMap.fits
  | clientUdp => exact objects.udpSockMap.fits
  | listenUdp => exact objects.udpBindMap.fits

end Objects

namespace Probe

variable {probe : Probe} {seen : List Key} {event : Event} {key : Key}

/-- The objects of a kind are as many as the keys seen. -/
theorem Holds.count (holds : probe.Holds seen) (kind : SkType) :
    probe.objects.count kind = distinctKeys seen kind := by
  rw [← Objects.keys_length, ← List.toFinset_card_of_nodup (probe.objects.keys_nodup kind), distinctKeys]
  congr 1
  ext key
  rw [List.mem_toFinset, Objects.mem_keys, List.mem_toFinset, List.mem_filter, holds key, decide_eq_true_iff, and_comm]

theorem step_objects (keyed : probe.Keyed) (event : Event) (other : Key) :
    ((probe.step event).objects.lookup other).isSome ↔
      (probe.objects.lookup other).isSome ∨ probe.objectOf event = some other := by
  have unchanged := (probe.prepared_objects event).1
  rw [step_eq, objectOf]
  cases asks : probe.call event with
  | none => simp only [answer, unchanged, Option.bind_none, reduceCtorEq, or_false]
  | some call =>
      rw [Option.bind_some, answer]
      cases returned : (probe.prepared event).object call.protocol.getKey call.context with
      | none =>
          rw [withVal_missed call.change call.reports returned, unchanged]
          simp only [reduceCtorEq, or_false]
      | some key =>
          obtain ⟨newEntry, stores⟩ := withVal_stores (prepared_keyed keyed) call.change call.reports returned
          by_cases same : other = key
          · rw [same, stores.own]
            simp only [Option.isSome_some, or_true]
          · rw [stores.others other same, unchanged, Option.some_inj]
            simp only [Ne.symm same, or_false]

/-- Only the key asked for is ever returned. -/
theorem objectOf_asked (keyed : probe.Keyed) (returned : probe.objectOf event = some key) :
    probe.askedKey event = some key := by
  obtain ⟨call, asks, got⟩ := Option.bind_eq_some_iff.mp returned
  rw [askedKey, asks, Option.bind_some]
  exact object_key (prepared_keyed keyed) got

/-- An object is returned if it is there, or if there is room for it. -/
theorem objectOf_isSome_iff (asked : probe.askedKey event = some key) :
    (probe.objectOf event).isSome ↔
      (probe.objects.lookup key).isSome ∨ probe.objects.count key.type < endpointStatMax := by
  obtain ⟨call, asks, here⟩ := Option.bind_eq_some_iff.mp asked
  have missed := object_eq_none_iff here
  rw [(probe.prepared_objects event).1] at missed
  rw [objectOf, asks, Option.bind_some, Option.isSome_iff_ne_none, Ne, missed, not_and_or, Nat.not_le,
    Option.isSome_iff_ne_none]

theorem answered_iff (keyed : probe.Keyed) (holds : probe.Holds seen) (asked : probe.askedKey event = some key) :
    probe.Answered event ↔ key ∈ seen ∨ distinctKeys seen key.type < endpointStatMax := by
  rw [← holds key, ← holds.count, ← objectOf_isSome_iff asked]
  refine ⟨fun answered => ?_, fun some other same => ?_⟩
  · rw [answered key asked]
    rfl
  · rw [asked] at same
    cases same
    obtain ⟨other, returned⟩ := Option.isSome_iff_exists.mp some
    have own := objectOf_asked keyed returned
    rw [asked] at own
    cases own
    exact returned

theorem step_holds (keyed : probe.Keyed) (holds : probe.Holds seen) (answered : probe.Answered event) :
    (probe.step event).Holds (seen ++ (probe.askedKey event).toList) := by
  intro other
  rw [step_objects keyed event other, holds other, List.mem_append, Option.mem_toList]
  have same : probe.objectOf event = some other ↔ probe.askedKey event = some other :=
    ⟨objectOf_asked keyed, answered other⟩
  rw [same]

theorem distinctKeys_append_le (seen later : List Key) (kind : SkType) :
    distinctKeys seen kind ≤ distinctKeys (seen ++ later) kind := by
  apply Finset.card_le_card
  intro key member
  rw [List.mem_toFinset, List.mem_filter] at member ⊢
  exact ⟨List.mem_append_left later member.1, member.2⟩

theorem distinctKeys_fresh (fresh : key ∉ seen) :
    distinctKeys (seen ++ [key]) key.type = distinctKeys seen key.type + 1 := by
  have extended : ((seen ++ [key]).filter fun other => other.type = key.type).toFinset =
      insert key (seen.filter fun other => other.type = key.type).toFinset := by
    ext other
    simp only [List.filter_append, List.toFinset_append, Finset.mem_union, List.mem_toFinset, Finset.mem_insert]
    simp [or_comm]
  rw [distinctKeys, extended, Finset.card_insert_of_notMem]
  · rfl
  · rw [List.mem_toFinset, List.mem_filter]
    exact fun member => fresh member.1

/-- All events of a run get their objects while the keys of each kind, from the
first event on, are no more than its map can hold. -/
theorem run_answered_iff (keyed : probe.Keyed) (holds : probe.Holds seen) (events : List Event) :
    Allows step Answered probe events ↔
      ∀ kind, distinctKeys (seen ++ probe.askedKeys events) kind ≤ endpointStatMax := by
  induction events generalizing probe seen with
  | nil =>
      refine ⟨fun _ kind => ?_, fun _ => trivial⟩
      rw [askedKeys, List.append_nil, ← holds.count kind]
      exact probe.objects.count_le kind
  | cons event rest ih =>
      rw [Allows, askedKeys, ← List.append_assoc]
      by_cases answered : probe.Answered event
      · rw [and_iff_right answered]
        exact ih (step_counts keyed event).keyed (step_holds keyed holds answered)
      · refine ⟨fun both => absurd both.1 answered, fun room => absurd ?_ answered⟩
        intro key asked
        refine (answered_iff keyed holds asked).mpr ?_ key asked
        by_cases known : key ∈ seen
        · exact .inl known
        · right
          have grown := distinctKeys_append_le (seen ++ [key]) ((probe.step event).askedKeys rest) key.type
          have bound := room key.type
          rw [asked, Option.toList_some] at bound
          rw [distinctKeys_fresh known] at grown
          omega

theorem loaded_holds (endpointMap : BoundedMap SockPtr EndpointV endpointMax)
    (listenSockfdMap : BoundedMap ListenSockfdKey Int32 listenFdMax) (args : Option Args) (tasks : UInt32 → Bool) :
    Holds { endpointMap, listenSockfdMap, args, tasks } [] := by
  intro key
  cases key <;> simp [Objects.lookup]

theorem answered_throughout_iff (endpointMap : BoundedMap SockPtr EndpointV endpointMax)
    (listenSockfdMap : BoundedMap ListenSockfdKey Int32 listenFdMax) (args : Option Args) (tasks : UInt32 → Bool)
    (events : List Event) :
    let loaded : Probe := { endpointMap, listenSockfdMap, args, tasks }
    Allows step Answered loaded events ↔
      ∀ kind, distinctKeys (loaded.askedKeys events) kind ≤ endpointStatMax := by
  intro loaded
  have keyed : loaded.Keyed := loaded_keyed endpointMap listenSockfdMap args tasks
  have holds : loaded.Holds [] := loaded_holds endpointMap listenSockfdMap args tasks
  exact run_answered_iff keyed holds events

def listens (process : Nat) : Event :=
  .inetListen { skPtr := 1, sk := { skNum := 80 }, tgid := .ofNat (process + 1) }

/-- A process opens a listening socket and closes it. -/
def listenAndRelease (process : Nat) : List Event := [listens process, .sockRelease 1]

def listenKey (process : Nat) : Key := .tcpListen (UInt32.ofNat (process + 1)).toInt32 80

/-- At most one socket is tracked after the event. -/
def OneTracked (probe : Probe) (event : Event) : Prop := (probe.step event).endpointMap.entries.length ≤ 1

/-- No socket is tracked, and all processes are. -/
structure Idle (probe : Probe) : Prop where
  endpointMap : probe.endpointMap = .empty
  args : probe.args = none

theorem Idle.prepared (idle : probe.Idle) (process : Nat) : probe.prepared (listens process) =
    { probe with
      endpointMap := ⟨[(1, ⟨.listenTcp, .ofNat (process + 1)⟩)], by simp, show 1 ≤ endpointMax by decide⟩ } := by
  simp only [listens, Probe.prepared, createSockMap, isValidTgid, idle.args, idle.endpointMap]
  rfl

theorem Idle.asked (idle : probe.Idle) (process : Nat) :
    probe.askedKey (listens process) = some (listenKey process) := by
  rw [askedKey, idle.prepared process]
  rfl

theorem Idle.listened (idle : probe.Idle) (process : Nat) :
    (probe.step (listens process)).endpointMap.entries.length = 1 ∧
      ((probe.step (listens process)).step (.sockRelease 1)).Idle := by
  have socks := probe.step_socks (listens process)
  have map := socks.endpointMap
  have args := socks.args
  rw [idle.prepared process] at map args
  refine ⟨?_, ?_, ?_⟩
  · rw [map]
    rfl
  · change (probe.step (listens process)).endpointMap.delete 1 = .empty
    rw [map]
    rfl
  · exact args.trans idle.args

theorem Idle.churn (idle : probe.Idle) (processes : List Nat) :
    Allows step OneTracked probe (processes.flatMap listenAndRelease) ∧
      probe.askedKeys (processes.flatMap listenAndRelease) = processes.map listenKey := by
  induction processes generalizing probe with
  | nil => exact ⟨trivial, rfl⟩
  | cons process rest ih =>
      have listened := idle.listened process
      have later := ih listened.2
      have released : ((probe.step (listens process)).step (.sockRelease 1)).endpointMap.entries.length ≤ 1 := by
        rw [listened.2.endpointMap]
        exact Nat.zero_le 1
      have silent : (probe.step (listens process)).askedKey (.sockRelease 1) = none := rfl
      refine ⟨⟨listened.1.le, released, later.1⟩, ?_⟩
      rw [List.flatMap_cons, listenAndRelease, List.cons_append, List.cons_append, List.nil_append, askedKeys, askedKeys,
        idle.asked, silent, later.2]
      rfl

theorem listenKey_distinct (count : Nat) (small : count < 2 ^ 32) :
    distinctKeys ((List.range count).map listenKey) .listenTcp = count := by
  have listening : ((List.range count).map listenKey).filter (fun key => key.type = .listenTcp) =
      (List.range count).map listenKey := by
    rw [List.filter_eq_self]
    intro key member
    obtain ⟨process, _, rfl⟩ := List.mem_map.mp member
    rfl
  have nodup : ((List.range count).map listenKey).Nodup := by
    apply List.Nodup.map_on _ List.nodup_range
    intro first firstBelow second secondBelow same
    have firstSmall := List.mem_range.mp firstBelow
    have secondSmall := List.mem_range.mp secondBelow
    injection same with tgid
    have size : UInt32.size = 2 ^ 32 := rfl
    have number := congrArg (fun tgid : Int32 => tgid.toUInt32.toNat) tgid
    simp only [UInt32.toUInt32_toInt32] at number
    rw [UInt32.toNat_ofNat_of_lt' (by omega), UInt32.toNat_ofNat_of_lt' (by omega)] at number
    omega
  rw [distinctKeys, listening, List.toFinset_card_of_nodup nodup, List.length_map, List.length_range]

theorem churn_overflows (count : Nat) (more : endpointStatMax < count) (small : count < 2 ^ 32) :
    Allows step OneTracked {} ((List.range count).flatMap listenAndRelease) ∧
      ¬ Allows step Answered {} ((List.range count).flatMap listenAndRelease) := by
  have idle : Idle {} := ⟨rfl, rfl⟩
  have churned := idle.churn (List.range count)
  refine ⟨churned.1, fun answered => ?_⟩
  have keyed : Keyed {} := loaded_keyed .empty .empty none fun _ => false
  have holds : Holds {} [] := loaded_holds .empty .empty none fun _ => false
  have room := (run_answered_iff keyed holds _).mp answered .listenTcp
  rw [List.nil_append, churned.2, listenKey_distinct count small] at room
  omega

/-- With one tracked socket at a time, the last of 1025 listeners has no object. -/
theorem churn_unanswered :
    Allows step OneTracked {} ((List.range 1025).flatMap listenAndRelease) ∧
      ¬ Allows step Answered {} ((List.range 1025).flatMap listenAndRelease) :=
  churn_overflows 1025 (by decide) (by decide)

end Probe

end GalaGopher.Ebpf.Endpoint
