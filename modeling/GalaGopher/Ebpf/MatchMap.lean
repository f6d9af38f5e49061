import GalaGopher.Data.BoundedMap
import GalaGopher.Data.Runs

namespace GalaGopher.Ebpf.MatchMap

open Data

structure ProbeKey where
  ctxId : UInt32
  bp : Int64
deriving DecidableEq

/-- `params`, in the order of the six arguments. -/
structure ProbeVal where
  params : Vector Int64 6
deriving DecidableEq

inductive CtxCaller where
  | user
  | kernel
deriving DecidableEq

def probeMatchMapMaxEntries : Nat := 1000

abbrev ProbeMatchMap := BoundedMap ProbeKey ProbeVal probeMatchMapMaxEntries

def getProbeKey (pid cpu : UInt32) (bp : Int64) (callerType : CtxCaller) : ProbeKey where
  ctxId := if callerType = .user ∧ pid ≠ 0 then pid else cpu
  bp := bp

/-- The map, and whether the value is in it. -/
def doPushMatchMap (map : ProbeMatchMap) (key : ProbeKey) (val : ProbeVal) : ProbeMatchMap × Bool :=
  match map.update key val with
  | some after => (after, true)
  | none => (map, false)

/-- The map, and the value found, or `none` for -1. -/
def doPopMatchMapEntry (map : ProbeMatchMap) (key : ProbeKey) : ProbeMatchMap × Option ProbeVal :=
  match map.lookup key with
  | none => (map, none)
  | some val => (map.delete key, some val)

/-- The probes on a function: `UPROBE_RET` with its program id, or `KPROBE_RET`
with the caller type it names and the frame pointer of the call. -/
inductive Probed where
  | uprobe (progId : Int64)
  | kprobe (callerType : CtxCaller) (fp : Int64)
deriving DecidableEq

/-- The key that either probe of a function makes. -/
def Probed.key (probed : Probed) (pid cpu : UInt32) : ProbeKey :=
  match probed with
  | .uprobe progId => getProbeKey pid cpu progId .user
  | .kprobe callerType fp => getProbeKey pid cpu fp callerType

/-- The entry probe; a push that fails is only printed. -/
def probeParmsStash (map : ProbeMatchMap) (key : ProbeKey) (val : ProbeVal) : ProbeMatchMap :=
  (doPushMatchMap map key val).1

def probeGetParms (map : ProbeMatchMap) (key : ProbeKey) : ProbeMatchMap × Option ProbeVal :=
  doPopMatchMapEntry map key

abbrev Thread := Nat

structure Call where
  probed : Probed
  parms : ProbeVal

/-- A call that has not returned: the key of its entry, and whether the value
under the key is still the one it stashed. -/
structure OpenCall where
  thread : Thread
  call : Call
  key : ProbeKey
  own : Bool

inductive Event where
  | entry (thread : Thread) (cpu : UInt32) (call : Call)
  /-- The innermost open call of the thread returns; not every return probe
  asks for the parameters. -/
  | ret (thread : Thread) (cpu : UInt32) (asks : Bool)

/-- The map beside the calls that are open, the last first, and the calls that
asked for their parameters with what they got. -/
structure System where
  map : ProbeMatchMap
  opened : List OpenCall
  answers : List (Call × Option ProbeVal)

namespace System

def start : System := { map := .empty, opened := [], answers := [] }

/-- The innermost open call of a thread. -/
def innermost (system : System) (thread : Thread) : Option OpenCall :=
  system.opened.find? fun opened => opened.thread = thread

def others (system : System) (thread : Thread) : List OpenCall :=
  system.opened.eraseP fun opened => opened.thread = thread

/-- The value under `key` is replaced or taken. -/
def disturb (key : ProbeKey) (opened : List OpenCall) : List OpenCall :=
  opened.map fun call => if call.key = key then { call with own := false } else call

/-- An entry under `key` finds room. -/
def hasRoom (map : ProbeMatchMap) (key : ProbeKey) : Bool :=
  (map.lookup key).isSome || map.entries.length < probeMatchMapMaxEntries

/-- `tid` is what `bpf_get_current_pid_tgid` has in its low half. -/
def step (tid : Thread → UInt32) (system : System) : Event → System
  | .entry thread cpu call =>
      let key := call.probed.key (tid thread) cpu
      let room := hasRoom system.map key
      { system with
        map := probeParmsStash system.map key call.parms
        opened := { thread, call, key, own := room } :: if room then disturb key system.opened else system.opened }
  | .ret thread cpu asks =>
      match system.innermost thread with
      | none => system
      | some returned =>
          if asks then
            let key := returned.call.probed.key (tid thread) cpu
            let (map, answer) := probeGetParms system.map key
            { map
              opened := disturb key (system.others thread)
              answers := system.answers ++ [(returned.call, answer)] }
          else
            { system with opened := system.others thread }

/-- Every call that asked got what its own entry recorded. -/
def Matched (system : System) : Prop :=
  ∀ answer ∈ system.answers, answer.2 = some answer.1.parms

/-- The frame pointer of a call that is probed in the kernel. -/
def Probed.fp : Probed → Option Int64
  | .uprobe _ => none
  | .kprobe _ fp => some fp

/-- Frames open at once have different frame pointers, fewer calls are open
than the map has entries, and only an open call returns. -/
def Possible (system : System) : Event → Prop
  | .entry _ _ call =>
      system.opened.length + 1 < probeMatchMapMaxEntries ∧
        ∀ opened ∈ system.opened, (Probed.fp call.probed).isSome →
          Probed.fp opened.call.probed ≠ Probed.fp call.probed
  | .ret thread _ _ => (system.innermost thread).isSome

instance (system : System) (event : Event) : Decidable (system.Possible event) :=
  match event with
  | .entry .. => inferInstanceAs (Decidable (_ ∧ _))
  | .ret .. => inferInstanceAs (Decidable (_ = true))

/-- A call that asks makes the key it was entered under, found room there then,
and no other call has been entered or has asked under that key since. -/
def Undisturbed (tid : Thread → UInt32) (system : System) : Event → Prop
  | .ret thread cpu true =>
      ∀ returned, system.innermost thread = some returned →
        returned.own ∧ returned.call.probed.key (tid thread) cpu = returned.key
  | _ => True

variable {tid : Thread → UInt32} {system : System} {event : Event}

/-- A call that is still its own has its parameters under its key. -/
def Own (system : System) : Prop :=
  ∀ opened ∈ system.opened, opened.own → system.map.lookup opened.key = some opened.call.parms

theorem others_subset (system : System) (thread : Thread) : system.others thread ⊆ system.opened :=
  List.eraseP_subset

theorem mem_of_disturb {key : ProbeKey} {opened : List OpenCall} {call : OpenCall}
    (member : call ∈ disturb key opened) (own : call.own) : call ∈ opened ∧ call.key ≠ key := by
  obtain ⟨before, present, rfl⟩ := List.mem_map.mp member
  split at own
  case isTrue => cases own
  case isFalse different =>
      rw [if_neg different]
      exact ⟨present, different⟩

theorem lookup_stash (map : ProbeMatchMap) (key other : ProbeKey) (val : ProbeVal) :
    (probeParmsStash map key val).lookup other =
      if hasRoom map key ∧ other = key then some val else map.lookup other := by
  cases updated : map.update key val with
  | none =>
      obtain ⟨absent, full⟩ := (map.update_eq_none_iff key val).mp updated
      have crowded : hasRoom map key = false := by simpa [hasRoom, absent] using full
      simp [probeParmsStash, doPushMatchMap, updated, crowded]
  | some after =>
      have room : hasRoom map key = true := by
        have placed : map.update key val ≠ none := by simp [updated]
        rw [ne_eq, map.update_eq_none_iff, not_and_or, Nat.not_le, ← ne_eq, ← Option.isSome_iff_ne_none] at placed
        simpa [hasRoom] using placed
      simp only [probeParmsStash, doPushMatchMap, updated, room, true_and]
      exact BoundedMap.lookup_update updated other

theorem lookup_get (map : ProbeMatchMap) (key other : ProbeKey) :
    (probeGetParms map key).1.lookup other = if other = key then none else map.lookup other := by
  cases found : map.lookup key with
  | none =>
      simp only [probeGetParms, doPopMatchMapEntry, found]
      split
      case isTrue same => rw [same, found]
      case isFalse => rfl
  | some val =>
      simp only [probeGetParms, doPopMatchMapEntry, found]
      exact BoundedMap.lookup_delete map key other

theorem get_answer (map : ProbeMatchMap) (key : ProbeKey) : (probeGetParms map key).2 = map.lookup key := by
  cases found : map.lookup key <;> simp [probeGetParms, doPopMatchMapEntry, found]

theorem Own.entry (holds : system.Own) (tid : Thread → UInt32) (thread : Thread) (cpu : UInt32) (call : Call) :
    (system.step tid (.entry thread cpu call)).Own := by
  intro opened member own
  simp only [System.step, lookup_stash, List.mem_cons] at member ⊢
  rcases member with rfl | member
  · have room : hasRoom system.map (call.probed.key (tid thread) cpu) = true := own
    simp [room]
  · split at member
    case isTrue room =>
        obtain ⟨present, different⟩ := mem_of_disturb member own
        rw [if_neg fun same => different same.2]
        exact holds opened present own
    case isFalse crowded =>
        rw [if_neg fun same => crowded same.1]
        exact holds opened member own

theorem Own.ret (holds : system.Own) (tid : Thread → UInt32) (thread : Thread) (cpu : UInt32) (asks : Bool) :
    (system.step tid (.ret thread cpu asks)).Own := by
  cases found : system.innermost thread with
  | none => simpa only [System.step, found] using holds
  | some returned =>
      have among := others_subset system thread
      cases asks with
      | false =>
          simp only [System.step, found]
          exact fun opened member => holds opened (among member)
      | true =>
          simp only [System.step, found, if_true]
          intro opened member own
          obtain ⟨other, different⟩ := mem_of_disturb member own
          rw [lookup_get, if_neg different]
          exact holds opened (among other) own

theorem Own.step (holds : system.Own) (tid : Thread → UInt32) (event : Event) : (system.step tid event).Own := by
  cases event with
  | entry thread cpu call => exact holds.entry tid thread cpu call
  | ret thread cpu asks => exact holds.ret tid thread cpu asks

theorem start_own : start.Own := by
  intro opened member
  cases member

theorem start_matched : start.Matched := by
  intro answer member
  cases member

theorem Matched.step (matched : system.Matched) (holds : system.Own) (undisturbed : system.Undisturbed tid event) :
    (system.step tid event).Matched := by
  cases event with
  | entry thread cpu call => exact matched
  | ret thread cpu asks =>
      cases found : system.innermost thread with
      | none => simpa only [System.step, found] using matched
      | some returned =>
          cases asks with
          | false =>
              simp only [System.step, found]
              exact matched
          | true =>
              obtain ⟨own, same⟩ := undisturbed returned found
              have present : returned ∈ system.opened := List.mem_of_find?_eq_some found
              simp only [System.step, found, if_true]
              intro answer member
              rcases List.mem_append.mp member with earlier | last
              · exact matched answer earlier
              · rw [List.mem_singleton.mp last, get_answer, same]
                exact holds returned present own

theorem parms_matched (tid : Thread → UInt32) {events : List Event} {last : System}
    (run : Runs (fun system event after =>
      system.Possible event ∧ system.Undisturbed tid event ∧ system.step tid event = after) start events last) :
    last.Matched := by
  have holds : last.Matched ∧ last.Own := by
    apply run.invariant (fun system => system.Matched ∧ system.Own)
    · exact ⟨start_matched, start_own⟩
    · intro system event after taken holds
      obtain ⟨_, undisturbed, rfl⟩ := taken
      exact ⟨holds.1.step holds.2 undisturbed, holds.2.step tid event⟩
  exact holds.1

def callOf (progId parm : Int64) : Call := { probed := .uprobe progId, parms := ⟨.replicate 6 parm⟩ }

/-- A function that enters itself once. -/
def recursion : List Event :=
  [.entry 7 0 (callOf 1 10), .entry 7 0 (callOf 1 20), .ret 7 0 true, .ret 7 0 true]

theorem parms_lost_by_recursion :
    ¬ ∀ (events : List Event) (last : System),
      Runs (fun system event after => system.Possible event ∧ system.step (fun _ => 7) event = after)
        start events last → last.Matched := by
  intro matched
  have allowed : Allows (step fun _ => 7) Possible start recursion := by decide +kernel
  have last := matched recursion _ allowed.runs (callOf 1 10, none) (List.mem_cons_of_mem _ List.mem_cons_self)
  cases last

instance (tid : Thread → UInt32) (system : System) : (event : Event) → Decidable (system.Undisturbed tid event)
  | .entry .. | .ret _ _ false => .isTrue trivial
  | .ret thread _ true => inferInstanceAs (Decidable (∀ returned ∈ system.innermost thread, _ ∧ _))

/-- Two threads on two CPUs; the calls of one are nested, and one of them is
probed in the kernel. -/
def interleaved : List Event :=
  [.entry 7 0 (callOf 1 10), .entry 8 1 (callOf 1 20), .entry 7 0 { probed := .kprobe .user 4096, parms := ⟨.replicate 6 30⟩ },
    .ret 8 1 true, .entry 8 1 (callOf 1 40), .ret 7 0 true, .ret 7 0 true, .ret 8 1 true]

theorem parms_matched_interleaved :
    (interleaved.foldl (step UInt32.ofNat) start).answers.map (fun answer => answer.2.map fun parms => parms.params[0]) =
        [some 20, some 30, some 10, some 40] ∧
      (interleaved.foldl (step UInt32.ofNat) start).Matched := by
  have allowed : Allows (step UInt32.ofNat) (fun system event => system.Possible event ∧ system.Undisturbed UInt32.ofNat event)
      start interleaved := by decide +kernel
  exact ⟨by decide +kernel, parms_matched UInt32.ofNat (allowed.runs.mono fun _ _ _ taken => ⟨taken.1.1, taken.1.2, taken.2⟩)⟩

/-- No open call and no value kept has the parameters of a call entered now. -/
def Fresh (system : System) : Event → Prop
  | .entry _ _ call =>
      (∀ key, system.map.lookup key ≠ some call.parms) ∧
        ∀ opened ∈ system.opened, opened.call.parms ≠ call.parms
  | .ret .. => True

/-- The parameters of an open call are nowhere but under its own key. -/
def Located (system : System) : Prop :=
  ∀ opened ∈ system.opened, ∀ key, system.map.lookup key = some opened.call.parms → opened.own ∧ key = opened.key

theorem of_mem_disturb {key : ProbeKey} {opened : List OpenCall} {call : OpenCall}
    (member : call ∈ disturb key opened) :
    ∃ before ∈ opened, call.call = before.call ∧ call.key = before.key ∧
      (before.own → before.key ≠ key → call.own) := by
  obtain ⟨before, present, rfl⟩ := List.mem_map.mp member
  refine ⟨before, present, ?_⟩
  split
  case isTrue same => exact ⟨rfl, rfl, fun _ different => absurd same different⟩
  case isFalse => exact ⟨rfl, rfl, fun own _ => own⟩

theorem start_located : start.Located := by
  intro opened member
  cases member

theorem Located.entry (located : system.Located) (tid : Thread → UInt32) {thread : Thread} {cpu : UInt32} {call : Call}
    (fresh : system.Fresh (.entry thread cpu call)) : (system.step tid (.entry thread cpu call)).Located := by
  intro opened member key found
  simp only [System.step, lookup_stash, List.mem_cons] at member found ⊢
  rcases member with rfl | member
  · split at found
    case isTrue room => exact room
    case isFalse => exact absurd found (fresh.1 key)
  · split at member
    case isTrue room =>
        obtain ⟨before, present, sameCall, sameKey, kept⟩ := of_mem_disturb member
        rw [sameCall] at found
        split at found
        case isTrue => exact absurd (Option.some.inj found).symm (fresh.2 before present)
        case isFalse apart =>
            obtain ⟨own, here⟩ := located before present key found
            rw [sameKey, ← here]
            exact ⟨kept own (here ▸ fun same => apart ⟨room, same⟩), rfl⟩
    case isFalse crowded =>
        rw [if_neg fun same => crowded same.1] at found
        exact located opened member key found

theorem Located.ret (located : system.Located) (tid : Thread → UInt32) (thread : Thread) (cpu : UInt32)
    (asks : Bool) : (system.step tid (.ret thread cpu asks)).Located := by
  cases found : system.innermost thread with
  | none => simpa only [System.step, found] using located
  | some returned =>
      have among := others_subset system thread
      cases asks with
      | false =>
          simp only [System.step, found]
          exact fun opened member => located opened (among member)
      | true =>
          simp only [System.step, found, if_true]
          intro opened member key present
          obtain ⟨before, other, sameCall, sameKey, kept⟩ := of_mem_disturb member
          rw [lookup_get, sameCall] at present
          split at present
          case isTrue => cases present
          case isFalse apart =>
              obtain ⟨own, here⟩ := located before (among other) key present
              rw [sameKey, ← here]
              exact ⟨kept own (here ▸ apart), rfl⟩

theorem Located.step (located : system.Located) (tid : Thread → UInt32) (fresh : system.Fresh event) :
    (system.step tid event).Located := by
  cases event with
  | entry thread cpu call => exact located.entry tid fresh
  | ret thread cpu asks => exact located.ret tid thread cpu asks

theorem answered_iff (tid : Thread → UInt32) {events : List Event} {last : System}
    (run : Runs (fun system event after => system.Fresh event ∧ system.step tid event = after) start events last)
    {thread : Thread} {returned : OpenCall} (found : last.innermost thread = some returned) (cpu : UInt32) :
    (probeGetParms last.map (returned.call.probed.key (tid thread) cpu)).2 = some returned.call.parms ↔
      last.Undisturbed tid (.ret thread cpu true) := by
  have placed : last.Located ∧ last.Own := by
    apply run.invariant (fun system => system.Located ∧ system.Own)
    · exact ⟨start_located, start_own⟩
    · intro system event after taken placed
      obtain ⟨fresh, rfl⟩ := taken
      exact ⟨placed.1.step tid fresh, placed.2.step tid event⟩
  have present : returned ∈ last.opened := List.mem_of_find?_eq_some found
  rw [get_answer]
  refine ⟨fun answer other same => ?_, fun undisturbed => ?_⟩
  · rw [found] at same
    cases same
    exact placed.1 returned present _ answer
  · obtain ⟨own, same⟩ := undisturbed returned found
    rw [same]
    exact placed.2 returned present own

end System

end GalaGopher.Ebpf.MatchMap
