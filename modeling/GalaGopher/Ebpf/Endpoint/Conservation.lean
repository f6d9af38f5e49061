import GalaGopher.Ebpf.Endpoint.Calls
import Mathlib.Data.Nat.ModEq
import Mathlib.Algebra.BigOperators.Group.List.Basic

namespace GalaGopher.Ebpf.Endpoint

open Data

namespace Probe

/-- The sum over the reports of an object. -/
def reported (probe : Probe) (key : Key) (stat : Stat) : Nat :=
  ((probe.output.filter fun value => value.key = key).map fun value => (value.epStats stat).toNat).sum

/-- The value in the map of the object's kind. -/
def held (probe : Probe) (key : Key) (stat : Stat) : Nat :=
  (probe.objects.lookup key).elim 0 fun value => (value.epStats stat).toNat

def total (probe : Probe) (key : Key) (stat : Stat) : Nat := probe.reported key stat + probe.held key stat

/-- The increments of the events of a run that got the object of `key`. -/
def increments (key : Key) (stat : Stat) (probe : Probe) : List Event → Nat
  | [] => 0
  | event :: rest =>
      (if probe.objectOf event = some key then event.increment stat else 0) +
        increments key stat (probe.step event) rest

variable {probe after : Probe} {key : Key} {stat : Stat} {event : Event}

theorem report_conserves (value : Val) (newEntry : Bool) (now period : UInt64) (stat : Stat) :
    ((report value newEntry now period).2.elim 0 fun emitted => (emitted.epStats stat).toNat) +
      ((report value newEntry now period).1.epStats stat).toNat = (value.epStats stat).toNat := by
  have cleared : (Stats.zero stat).toNat = 0 := rfl
  unfold report
  split
  case isTrue => exact Nat.add_zero _
  case isFalse =>
      split
      case isTrue => exact Nat.zero_add _
      case isFalse => exact Nat.add_zero _

theorem report_key (value : Val) (newEntry : Bool) (now period : UInt64) :
    (report value newEntry now period).1.key = value.key ∧
      ∀ emitted, (report value newEntry now period).2 = some emitted → emitted.key = value.key := by
  unfold report
  split
  case isTrue => simp
  case isFalse => split <;> simp

theorem outcome_conserves (probe : Probe) (context : Context) (reports : Bool → Bool) (value : Val)
    (newEntry : Bool) (stat : Stat) :
    ((probe.outcome context reports value newEntry).2.elim 0 fun emitted => (emitted.epStats stat).toNat) +
      ((probe.outcome context reports value newEntry).1.epStats stat).toNat = (value.epStats stat).toNat := by
  unfold outcome
  split
  case isTrue => exact report_conserves ..
  case isFalse => exact Nat.zero_add _

theorem outcome_key (probe : Probe) (context : Context) (reports : Bool → Bool) (value : Val) (newEntry : Bool) :
    (probe.outcome context reports value newEntry).1.key = value.key ∧
      ∀ emitted, (probe.outcome context reports value newEntry).2 = some emitted → emitted.key = value.key := by
  unfold outcome
  split
  case isTrue => exact report_key ..
  case isFalse => simp

section Stores

variable {kept : Val} {emitted : Option Val} (stores : Stores probe after key kept emitted)

include stores

theorem Stores.keyed (keptKey : kept.key = key) (keyed : probe.Keyed) : after.Keyed := by
  intro other value found
  by_cases same : other = key
  · subst same
    rw [stores.own] at found
    cases found
    exact keptKey
  · rw [stores.others other same] at found
    exact keyed other value found

variable (sentKey : ∀ sent, emitted = some sent → sent.key = key)

include sentKey

theorem Stores.total_own : after.total key stat =
    probe.reported key stat + ((emitted.elim 0 fun sent => (sent.epStats stat).toNat) + (kept.epStats stat).toNat) := by
  have sent : ((emitted.toList.filter fun value => value.key = key).map fun value => (value.epStats stat).toNat).sum =
      emitted.elim 0 fun sent => (sent.epStats stat).toNat := by
    cases sent : emitted with
    | none => rfl
    | some value => simp [sentKey value sent]
  simp only [total, reported, held, stores.output, stores.own, List.filter_append, List.map_append, List.sum_append,
    sent, Option.elim_some, Nat.add_assoc]

theorem Stores.total_other {other : Key} (different : other ≠ key) : after.total other stat = probe.total other stat := by
  have silent : (emitted.toList.filter fun value => value.key = other) = [] := by
    rw [List.filter_eq_nil_iff]
    intro sent member
    have own := sentKey sent (by simpa using member)
    simp [own, Ne.symm different]
  simp only [total, reported, held, stores.output, List.filter_append, silent, List.append_nil,
    stores.others other different]

end Stores

/-- The value asked for counts what is held under its key. -/
theorem valueFor_held (probe : Probe) (context : Context) (key : Key) (stat : Stat) :
    ((probe.valueFor context key).epStats stat).toNat = probe.held key stat := by
  rw [valueFor, held]
  cases probe.objects.lookup key with
  | none => rfl
  | some value => rfl

theorem valueFor_key (keyed : probe.Keyed) (context : Context) (key : Key) :
    (probe.valueFor context key).key = key := by
  rw [valueFor]
  cases found : probe.objects.lookup key with
  | none => rfl
  | some value => exact keyed key value found

theorem prepared_counters (probe : Probe) (event : Event) (key : Key) (stat : Stat) :
    (probe.prepared event).reported key stat = probe.reported key stat ∧
      (probe.prepared event).held key stat = probe.held key stat := by
  rw [reported, reported, held, held, (probe.prepared_objects event).1, (probe.prepared_objects event).2]
  exact ⟨rfl, rfl⟩

theorem prepared_total (probe : Probe) (event : Event) (key : Key) (stat : Stat) :
    (probe.prepared event).total key stat = probe.total key stat := by
  rw [total, total, (probe.prepared_counters event key stat).1, (probe.prepared_counters event key stat).2]

/-- What one event does to the counters of all objects. -/
structure Counts (before after : Probe) (object : Option Key) (increment : Stat → Nat) : Prop where
  keyed : after.Keyed
  own : ∀ key stat, object = some key →
    after.total key stat = before.reported key stat + (before.held key stat + increment stat) % 2 ^ 64
  others : ∀ key stat, object ≠ some key → after.total key stat = before.total key stat

theorem Counts.modEq {object : Option Key} {increment : Stat → Nat} (counts : Counts probe after object increment)
    (returned : object = some key) :
    after.total key stat ≡ probe.total key stat + increment stat [MOD 2 ^ 64] := by
  rw [counts.own key stat returned, total, Nat.add_assoc]
  exact (Nat.mod_modEq _ _).add_left _

theorem answer_counts (keyed : probe.Keyed) {call : Call} {increment : Stat → Nat}
    (adds : ∀ value, Val.Added value (call.change value) increment) :
    Counts probe (probe.answer (some call)) (probe.object call.protocol.getKey call.context) increment := by
  cases returned : probe.object call.protocol.getKey call.context with
  | none =>
      rw [answer, withVal_missed call.change call.reports returned]
      refine ⟨keyed, ?_, fun _ _ _ => rfl⟩
      intro key stat found
      cases found
  | some key =>
      obtain ⟨newEntry, stores⟩ := withVal_stores keyed call.change call.reports returned
      have added := adds (probe.valueFor call.context key)
      have changedKey := added.key.trans (valueFor_key keyed call.context key)
      have resultKey := probe.outcome_key call.context call.reports (call.change (probe.valueFor call.context key)) newEntry
      rw [changedKey] at resultKey
      refine ⟨stores.keyed resultKey.1 keyed, ?_, ?_⟩
      · intro other stat same
        cases same
        rw [answer, stores.total_own resultKey.2, outcome_conserves, added.stats stat, valueFor_held]
      · intro other stat different
        exact stores.total_other resultKey.2 fun same => different (by rw [same])

theorem step_counts (keyed : probe.Keyed) (event : Event) :
    Counts probe (probe.step event) (probe.objectOf event) event.increment := by
  have preparedKeyed := @prepared_keyed probe event keyed
  rw [step_eq, objectOf]
  cases asks : probe.call event with
  | none =>
      refine ⟨preparedKeyed, ?_, fun key stat _ => probe.prepared_total event key stat⟩
      intro key stat found
      cases found
  | some call =>
      have counts := answer_counts preparedKeyed (call_change asks)
      refine ⟨counts.keyed, ?_, ?_⟩
      · intro key stat found
        have own := counts.own key stat found
        rwa [(probe.prepared_counters event key stat).1, (probe.prepared_counters event key stat).2] at own
      · intro key stat missed
        rw [← probe.prepared_total event key stat]
        exact counts.others key stat missed

theorem run_counts (keyed : probe.Keyed) (events : List Event) (key : Key) (stat : Stat) :
    (events.foldl step probe).total key stat ≡
      probe.total key stat + probe.increments key stat events [MOD 2 ^ 64] := by
  induction events generalizing probe with
  | nil => exact Nat.ModEq.refl _
  | cons event rest ih =>
      have counts := step_counts keyed event
      have first : (probe.step event).total key stat ≡
          probe.total key stat + (if probe.objectOf event = some key then event.increment stat else 0)
          [MOD 2 ^ 64] := by
        split
        case isTrue returned => exact counts.modEq returned
        case isFalse missed => rw [counts.others key stat missed]; rfl
      rw [List.foldl_cons, increments, ← Nat.add_assoc]
      exact (ih counts.keyed).trans (first.add_right _)

theorem run_keyed (keyed : probe.Keyed) (events : List Event) : (events.foldl step probe).Keyed := by
  induction events generalizing probe with
  | nil => exact keyed
  | cons event rest ih => exact ih (step_counts keyed event).keyed

theorem getKey_type {protocol : Protocol} {type : SkType} {sk : Sock} {tgid : UInt32}
    (asked : protocol.getKey type sk tgid = some key) : key.type = type ∧ type.protocol = protocol := by
  cases protocol <;> cases type <;> cases asked <;> exact ⟨rfl, rfl⟩

/-- The object is one of the type that the socket has now. -/
theorem objectOf_type (keyed : probe.Keyed) (returned : probe.objectOf event = some key) : ∃ call epv,
    probe.call event = some call ∧ (probe.prepared event).endpointMap.lookup call.context.skPtr = some epv ∧
      key.type = epv.type := by
  obtain ⟨call, asks, got⟩ := Option.bind_eq_some_iff.mp returned
  have preparedKeyed := @prepared_keyed probe event keyed
  obtain ⟨_, epv, tracked, asked⟩ := keyOf_tracked (object_key preparedKeyed got)
  exact ⟨call, epv, asks, tracked, (getKey_type asked).1⟩

theorem loaded_keyed (endpointMap : BoundedMap SockPtr EndpointV endpointMax)
    (listenSockfdMap : BoundedMap ListenSockfdKey Int32 listenFdMax) (args : Option Args) (tasks : UInt32 → Bool) :
    Keyed { endpointMap, listenSockfdMap, args, tasks } := by
  intro key value found
  cases key <;> cases found

theorem stats_conserved (endpointMap : BoundedMap SockPtr EndpointV endpointMax)
    (listenSockfdMap : BoundedMap ListenSockfdKey Int32 listenFdMax) (args : Option Args) (tasks : UInt32 → Bool)
    (events : List Event) :
    let loaded : Probe := { endpointMap, listenSockfdMap, args, tasks }
    let after := events.foldl step loaded
    (∀ key stat, after.reported key stat + after.held key stat ≡ loaded.increments key stat events [MOD 2 ^ 64]) ∧
      ∀ event key, (after.objectOf event = some key → ∃ call epv, after.call event = some call ∧
          (after.prepared event).endpointMap.lookup call.context.skPtr = some epv ∧ key.type = epv.type) ∧
        ∀ stat, after.objectOf event ≠ some key → (after.step event).total key stat = after.total key stat := by
  intro loaded after
  have keyed : loaded.Keyed := loaded_keyed endpointMap listenSockfdMap args tasks
  refine ⟨fun key stat => ?_, fun event key => ⟨objectOf_type (run_keyed keyed events), fun stat => ?_⟩⟩
  · have run := run_counts keyed events key stat
    have start : loaded.total key stat = 0 := by
      cases key <;> rfl
    rw [start, Nat.zero_add] at run
    exact run
  · exact (step_counts (run_keyed keyed events) event).others key stat

end Probe

end GalaGopher.Ebpf.Endpoint
