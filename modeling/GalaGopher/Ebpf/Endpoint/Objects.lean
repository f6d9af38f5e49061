import GalaGopher.Ebpf.Endpoint

namespace GalaGopher.Ebpf.Endpoint

open Data

namespace Objects

variable {objects after : Objects} {key : Key} {value : Val}

theorem lookup_update (updated : objects.update key value = some after) (other : Key) :
    after.lookup other = if other = key then some value else objects.lookup other := by
  cases key with
  | udpClient tgid ipAddr | udpServer tgid ipAddr | tcpListen tgid port | tcpConnect tgid ipAddr =>
      obtain ⟨map, changed, rfl⟩ := Option.map_eq_some_iff.mp updated
      have found := BoundedMap.lookup_update changed
      cases other <;> simp [lookup, found]

theorem lookup_modify (objects : Objects) (key other : Key) (change : Val → Val) :
    (objects.modify key change).lookup other =
      if other = key then (objects.lookup key).map change else objects.lookup other := by
  cases key <;> cases other <;> simp [lookup, modify, BoundedMap.lookup_modify]

theorem update_eq_none_iff (objects : Objects) (key : Key) (value : Val) :
    objects.update key value = none ↔ objects.lookup key = none ∧ endpointStatMax ≤ objects.count key.type := by
  cases key <;> simp [update, lookup, count, Key.type, BoundedMap.update_eq_none_iff]

end Objects

namespace Probe

variable {getKey : SkType → Sock → UInt32 → Option Key} {probe : Probe} {context : Context} {key : Key}

/-- The object that is returned, by its key. -/
def object (getKey : SkType → Sock → UInt32 → Option Key) (probe : Probe) (context : Context) : Option Key :=
  (probe.getVal getKey context).2.map fun got => got.1.key

/-- Objects are stored under their own keys. -/
def Keyed (probe : Probe) : Prop := ∀ key value, probe.objects.lookup key = some value → value.key = key

/-- The value that is there, or the one that is created. -/
def valueFor (probe : Probe) (context : Context) (key : Key) : Val :=
  (probe.objects.lookup key).getD { ts := context.createdAt, key }

/-- What getting an object returns. -/
theorem getVal_cases (getKey : SkType → Sock → UInt32 → Option Key) (probe : Probe) (context : Context) :
    (probe.keyOf getKey context = none ∧ probe.getVal getKey context = (probe, none)) ∨
    (∃ key value, probe.keyOf getKey context = some key ∧ probe.objects.lookup key = some value ∧
      probe.getVal getKey context = (probe, some (value, false))) ∨
    (∃ key objects, probe.keyOf getKey context = some key ∧ probe.objects.lookup key = none ∧
      probe.objects.update key { ts := context.createdAt, key } = some objects ∧
      probe.getVal getKey context = ({ probe with objects }, some ({ ts := context.createdAt, key }, true))) ∨
    ∃ key, probe.keyOf getKey context = some key ∧ probe.objects.lookup key = none ∧
      endpointStatMax ≤ probe.objects.count key.type ∧ probe.getVal getKey context = (probe, none) := by
  unfold getVal
  cases asked : probe.keyOf getKey context with
  | none => exact .inl ⟨rfl, rfl⟩
  | some key =>
      cases present : probe.objects.lookup key with
      | some value => exact .inr (.inl ⟨key, value, rfl, present, by simp only [present]⟩)
      | none =>
          cases updated : probe.objects.update key { ts := context.createdAt, key } with
          | none =>
              have full := (probe.objects.update_eq_none_iff key _).mp updated
              refine .inr (.inr (.inr ⟨key, rfl, present, full.2, ?_⟩))
              simp only [present, createObj, updated, Option.map_none]
          | some objects =>
              have stored := Objects.lookup_update updated key
              rw [if_pos rfl] at stored
              refine .inr (.inr (.inl ⟨key, objects, rfl, present, updated, ?_⟩))
              simp only [present, createObj, updated, Option.map_some, stored]

/-- A key is one of a tracked socket. -/
theorem keyOf_tracked (asked : probe.keyOf getKey context = some key) :
    context.skPtr ≠ 0 ∧ ∃ epv, probe.endpointMap.lookup context.skPtr = some epv ∧
      getKey epv.type context.sk epv.tgid = some key := by
  unfold keyOf at asked
  split at asked
  case isTrue => cases asked
  case isFalse nonnull =>
      split at asked
      case h_1 => cases asked
      case h_2 epv tracked => exact ⟨nonnull, epv, tracked, asked⟩

theorem object_unasked (unasked : probe.keyOf getKey context = none) : probe.object getKey context = none := by
  rw [object, getVal, unasked]
  rfl

theorem object_cases (keyed : probe.Keyed) :
    probe.object getKey context = none ∨ probe.object getKey context = probe.keyOf getKey context := by
  rcases getVal_cases getKey probe context with ⟨_, got⟩ | ⟨key, value, asked, present, got⟩ |
    ⟨key, objects, asked, _, _, got⟩ | ⟨key, _, _, _, got⟩
  · exact .inl (by rw [object, got]; rfl)
  · exact .inr (by rw [object, got, asked, ← keyed key value present]; rfl)
  · exact .inr (by rw [object, got, asked]; rfl)
  · exact .inl (by rw [object, got]; rfl)

theorem object_key (keyed : probe.Keyed) (got : probe.object getKey context = some key) :
    probe.keyOf getKey context = some key := by
  have either : probe.object getKey context = none ∨ probe.object getKey context = probe.keyOf getKey context :=
    object_cases keyed
  rcases either with missed | same
  · rw [missed] at got
    cases got
  · rw [← same, got]

/-- No object is returned for a key exactly when its map is full without it. -/
theorem object_eq_none_iff (asked : probe.keyOf getKey context = some key) :
    probe.object getKey context = none ↔
      probe.objects.lookup key = none ∧ endpointStatMax ≤ probe.objects.count key.type := by
  rcases getVal_cases getKey probe context with ⟨unasked, _⟩ | ⟨other, value, same, present, got⟩ |
    ⟨other, objects, same, absent, updated, got⟩ | ⟨other, same, absent, full, got⟩
  · rw [asked] at unasked
    cases unasked
  · cases asked.symm.trans same
    simp [object, got, present]
  · cases asked.symm.trans same
    have room : probe.objects.update key { ts := context.createdAt, key } ≠ none := by simp [updated]
    rw [Ne, Objects.update_eq_none_iff] at room
    simp only [object, got, Option.map_some, reduceCtorEq, false_iff]
    exact room
  · cases asked.symm.trans same
    simp [object, got, absent, full]

/-- All but the objects and the output is as it was. -/
structure SameSocks (before after : Probe) : Prop where
  endpointMap : after.endpointMap = before.endpointMap
  listenSockfdMap : after.listenSockfdMap = before.listenSockfdMap
  args : after.args = before.args
  tasks : after.tasks = before.tasks

theorem withVal_socks (getKey : SkType → Sock → UInt32 → Option Key) (probe : Probe) (context : Context)
    (change : Val → Val) (reports : Bool → Bool) : SameSocks probe (probe.withVal getKey context change reports) := by
  rcases getVal_cases getKey probe context with ⟨_, got⟩ | ⟨key, value, _, _, got⟩ |
    ⟨key, objects, _, _, _, got⟩ | ⟨key, _, _, _, got⟩
  all_goals
    simp only [withVal, got]
    exact ⟨rfl, rfl, rfl, rfl⟩

/-- The object of `key` and the output change alone. -/
structure Stores (before after : Probe) (key : Key) (kept : Val) (emitted : Option Val) : Prop where
  own : after.objects.lookup key = some kept
  others : ∀ other, other ≠ key → after.objects.lookup other = before.objects.lookup other
  output : after.output = before.output ++ emitted.toList

/-- The value that a hook stores, and the one that it puts out. -/
def outcome (probe : Probe) (context : Context) (reports : Bool → Bool) (value : Val) (newEntry : Bool) :
    Val × Option Val :=
  if reports newEntry then report value newEntry context.reportedAt probe.getPeriod else (value, none)

theorem withVal_missed (change : Val → Val) (reports : Bool → Bool) (missed : probe.object getKey context = none) :
    probe.withVal getKey context change reports = probe := by
  rcases getVal_cases getKey probe context with ⟨_, got⟩ | ⟨key, value, asked, present, got⟩ |
    ⟨key, objects, asked, _, _, got⟩ | ⟨key, _, _, _, got⟩
  · simp only [withVal, got]
  · simp [object, got] at missed
  · simp [object, got] at missed
  · simp only [withVal, got]

theorem withVal_stores (keyed : probe.Keyed) (change : Val → Val) (reports : Bool → Bool)
    (returned : probe.object getKey context = some key) : ∃ newEntry,
    let result := probe.outcome context reports (change (probe.valueFor context key)) newEntry
    Stores probe (probe.withVal getKey context change reports) key result.1 result.2 := by
  rcases getVal_cases getKey probe context with ⟨_, got⟩ | ⟨other, value, asked, present, got⟩ |
    ⟨other, objects, asked, absent, updated, got⟩ | ⟨other, _, _, _, got⟩
  · simp [object, got] at returned
  · have own := keyed other value present
    have same : other = key := by simpa [object, got, own] using returned
    subst same
    refine ⟨false, ?_, ?_, ?_⟩
    · simp [withVal, got, own, Objects.lookup_modify, present, outcome, valueFor]
    · intro apart different
      simp [withVal, got, own, Objects.lookup_modify, different]
    · simp [withVal, got, outcome, valueFor, present]
  · have same : other = key := by simpa [object, got] using returned
    subst same
    have stored := Objects.lookup_update updated
    refine ⟨true, ?_, ?_, ?_⟩
    · simp [withVal, got, Objects.lookup_modify, stored, outcome, valueFor, absent, getPeriod]
    · intro apart different
      simp [withVal, got, Objects.lookup_modify, stored, different]
    · simp [withVal, got, outcome, valueFor, absent, getPeriod]
  · simp [object, got] at returned

end Probe

end GalaGopher.Ebpf.Endpoint
