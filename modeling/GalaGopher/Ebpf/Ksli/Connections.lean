import GalaGopher.Data.BoundedMap
import GalaGopher.Data.Runs
import GalaGopher.Ebpf.Ksli.Accepted

namespace GalaGopher.Ebpf.Ksli

open Text Lvs LoadBalancer Data

def maxConnLen : Nat := 8192

structure ConnKey where
  tgid : Int32
  fd : Int32
deriving DecidableEq

/-- `struct conn_data_t` with its identity and its socket. -/
structure ConnEntry where
  id : ConnId
  sk : UInt64
  connData : ConnData := {}

/-- `stashed` is what the match map holds for a thread: the descriptor with
which it has entered one of the functions whose return is probed. -/
structure Tables where
  connMap : BoundedMap ConnKey ConnEntry maxConnLen
  connSampMap : BoundedMap UInt64 ConnSampData maxConnLen
  stashed : Nat → Option ConnKey

/-- `sock` is the socket of the accepted descriptor, if it has one.  `pushed`
tells whether the match map, which all probed calls share, took the entry. -/
inductive KernelEvent where
  | accept (tgid fd : Int32) (sock : Option (UInt64 × Sock)) (now : UInt64)
  | enter (thread : Nat) (key : ConnKey) (pushed : Bool)
  | close (thread : Nat) (ret : UInt64)
  | read (thread : Nat) (tsNsec : UInt64) (data : Bytes) (readable : Bool)
  | write (thread : Nat) (count : Int32)
  | newDataSent (sk skb : UInt64)
  | skbDelivered (sk skb endTsNsec : UInt64)
  | recvmsg (sk : UInt64) (thread : Nat) (queued : Option UInt64)

def MsgEvent.connKey (report : MsgEvent) : ConnKey := ⟨report.connId.tgid, report.connId.fd⟩

namespace Tables

def empty : Tables where
  connMap := .empty
  connSampMap := .empty
  stashed := fun _ => none

/-- The return of `__sys_accept4`. -/
def accept (tables : Tables) (tgid fd : Int32) (sock : Option (UInt64 × Sock)) (now : UInt64) : Tables :=
  if fd < 0 then tables
  else
    match sock with
    | none => tables
    | some (sk, sock) =>
        match initConnId fd tgid sock now with
        | none => tables
        | some id =>
            match tables.connMap.update ⟨tgid, fd⟩ { id, sk } with
            | none => tables
            | some connMap =>
                { tables with
                  connMap
                  connSampMap := (tables.connSampMap.update sk {}).getD tables.connSampMap }

def popped (tables : Tables) (thread : Nat) : Tables :=
  { tables with stashed := Function.update tables.stashed thread none }

/-- The entry half of `KSLIPROBE_RET`. -/
def enter (tables : Tables) (thread : Nat) (key : ConnKey) (pushed : Bool) : Tables :=
  if (tables.connMap.lookup key).isSome then
    if pushed then { tables with stashed := Function.update tables.stashed thread (some key) }
    else tables.popped thread
  else tables

/-- The return of `__close_fd`.  `PT_REGS_RC` is unsigned, so the test for a
close that failed never succeeds. -/
def close (tables : Tables) (thread : Nat) (ret : UInt64) : Tables :=
  match tables.stashed thread with
  | none => tables
  | some key =>
      let tables := tables.popped thread
      if ret < 0 then tables
      else
        match tables.connMap.lookup key with
        | none => tables
        | some connData =>
            { tables with
              connSampMap := tables.connSampMap.delete connData.sk
              connMap := tables.connMap.delete key }

/-- `process_rdwr_msg`, with what it does to a connection. -/
def processRdwrMsg (tables : Tables) (key : ConnKey) (event : Event) : Tables × Option MsgEvent :=
  match tables.connMap.lookup key with
  | none => (tables, none)
  | some entry =>
      match tables.connSampMap.lookup entry.sk with
      | none => (tables, none)
      | some csd =>
          let (accepted, report) := ({ id := entry.id, conn := { connData := entry.connData, csd } } : Accepted).step event
          ({ tables with
              connMap := tables.connMap.modify key fun entry => { entry with connData := accepted.conn.connData }
              connSampMap := tables.connSampMap.modify entry.sk fun _ => accepted.conn.csd },
            report)

/-- The return of `ksys_read` or `ksys_write`. -/
def returned (tables : Tables) (thread : Nat) (event : Event) : Tables × Option MsgEvent :=
  match tables.stashed thread with
  | none => (tables, none)
  | some key => (tables.popped thread).processRdwrMsg key event

/-- The functions called with a socket touch what is sampled of it. -/
def sampled (tables : Tables) (sk : UInt64) (event : Event) : Tables :=
  { tables with connSampMap := tables.connSampMap.modify sk fun csd => (({ csd } : Conn).step event).1.csd }

def step (tables : Tables) : KernelEvent → Tables × Option MsgEvent
  | .accept tgid fd sock now => (tables.accept tgid fd sock now, none)
  | .enter thread key pushed => (tables.enter thread key pushed, none)
  | .close thread ret => (tables.close thread ret, none)
  | .read thread tsNsec data readable => tables.returned thread (.read thread tsNsec data readable)
  | .write thread count => tables.returned thread (.write count)
  | .newDataSent sk skb => (tables.sampled sk (.newDataSent skb), none)
  | .skbDelivered sk skb endTsNsec => (tables.sampled sk (.skbDelivered skb endTsNsec), none)
  | .recvmsg sk thread queued => (tables.sampled sk (.recvmsg thread queued), none)

def session (tables : Tables) (key : ConnKey) : Option (UInt64 × Accepted) :=
  (tables.connMap.lookup key).bind fun entry =>
    (tables.connSampMap.lookup entry.sk).map fun csd =>
      (entry.sk, { id := entry.id, conn := { connData := entry.connData, csd } })

/-- What an event is to the connection under a descriptor, on a socket. -/
def own (tables : Tables) (key : ConnKey) (sk : UInt64) : KernelEvent → Option Event
  | .read thread tsNsec data readable =>
      if tables.stashed thread = some key then some (.read thread tsNsec data readable) else none
  | .write thread count => if tables.stashed thread = some key then some (.write count) else none
  | .newDataSent other skb => if other = sk then some (.newDataSent skb) else none
  | .skbDelivered other skb endTsNsec => if other = sk then some (.skbDelivered skb endTsNsec) else none
  | .recvmsg other thread queued => if other = sk then some (.recvmsg thread queued) else none
  | .accept .. | .enter .. | .close .. => none

/-- The descriptor is given to another connection, or a close of it returns,
whatever it answers. -/
def Ends (tables : Tables) (key : ConnKey) : KernelEvent → Prop
  | .accept tgid fd _ _ => key = ⟨tgid, fd⟩
  | .close thread _ => tables.stashed thread = some key
  | _ => False

/-- A connection that is accepted has a socket of its own, none that is still
stored for another descriptor. -/
def Allowed (tables : Tables) : KernelEvent → Prop
  | .accept tgid fd (some (sk, _)) _ =>
      ∀ stored ∈ tables.connMap.entries, stored.2.sk = sk → stored.1 = ⟨tgid, fd⟩
  | _ => True

instance (tables : Tables) (key : ConnKey) : (event : KernelEvent) → Decidable (tables.Ends key event)
  | .accept tgid fd _ _ => inferInstanceAs (Decidable (key = ⟨tgid, fd⟩))
  | .close thread _ => inferInstanceAs (Decidable (tables.stashed thread = some key))
  | .enter .. | .read .. | .write .. | .newDataSent .. | .skbDelivered .. | .recvmsg .. => .isFalse not_false

instance (tables : Tables) : (event : KernelEvent) → Decidable (tables.Allowed event)
  | .accept tgid fd (some (sk, _)) _ =>
      inferInstanceAs (Decidable (∀ stored ∈ tables.connMap.entries, stored.2.sk = sk → stored.1 = ⟨tgid, fd⟩))
  | .accept _ _ none _ | .enter .. | .close .. | .read .. | .write .. | .newDataSent .. | .skbDelivered ..
  | .recvmsg .. => .isTrue trivial

/-- No two descriptors share a socket, and each entry names its descriptor. -/
structure Sound (tables : Tables) : Prop where
  unshared : ∀ key other entry shared, tables.connMap.lookup key = some entry →
    tables.connMap.lookup other = some shared → entry.sk = shared.sk → key = other
  named : ∀ key entry, tables.connMap.lookup key = some entry → (⟨entry.id.tgid, entry.id.fd⟩ : ConnKey) = key

variable {tables : Tables} {key : ConnKey} {sk : UInt64} {event : KernelEvent} {entry : ConnEntry} {accepted : Accepted}
  {thread : Nat} {csd : ConnSampData}

theorem Allowed.fresh {tgid fd : Int32} {sock : Sock} {now : UInt64}
    (allowed : tables.Allowed (.accept tgid fd (some (sk, sock)) now)) (found : tables.connMap.lookup key = some entry)
    (same : entry.sk = sk) : key = ⟨tgid, fd⟩ :=
  allowed (key, entry) ((BoundedMap.lookup_eq_some_iff _ _ _).mp found) same

theorem empty_sound : empty.Sound where
  unshared _ _ _ _ found := by cases found
  named _ _ found := by cases found

theorem initConnId_names {fd tgid : Int32} {sock : Sock} {now : UInt64} {id : ConnId}
    (identified : initConnId fd tgid sock now = some id) : id.tgid = tgid ∧ id.fd = fd := by
  simp only [initConnId, Option.map_eq_some_iff] at identified
  obtain ⟨filled, family, rfl⟩ := identified
  split at family
  · cases family
    exact ⟨rfl, rfl⟩
  · split at family
    · cases family
      exact ⟨rfl, rfl⟩
    · cases family

/-- What an accept leaves in the maps, if it stores the connection. -/
theorem accept_cases (tables : Tables) (tgid fd : Int32) (sock : Option (UInt64 × Sock)) (now : UInt64) :
    tables.accept tgid fd sock now = tables ∨
      ∃ sk held id connMap connSampMap, sock = some (sk, held) ∧ initConnId fd tgid held now = some id ∧
        tables.connMap.update ⟨tgid, fd⟩ { id, sk } = some connMap ∧
        connSampMap = (tables.connSampMap.update sk {}).getD tables.connSampMap ∧
        tables.accept tgid fd sock now = { tables with connMap, connSampMap } := by
  simp only [accept]
  split
  · exact .inl rfl
  · split
    · exact .inl rfl
    · rename_i sk held
      split
      · exact .inl rfl
      · rename_i id identified
        split
        · exact .inl rfl
        · rename_i connMap stored
          exact .inr ⟨sk, held, id, connMap, _, rfl, identified, stored, rfl, rfl⟩

theorem Sound.accept {tgid fd : Int32} {sock : Option (UInt64 × Sock)} {now : UInt64} (sound : tables.Sound)
    (allowed : tables.Allowed (.accept tgid fd sock now)) : (tables.accept tgid fd sock now).Sound := by
  rcases tables.accept_cases tgid fd sock now with
    refused | ⟨sk, held, id, connMap, connSampMap, rfl, identified, stored, rfl, after⟩
  · rw [refused]
    exact sound
  rw [after]
  refine ⟨fun key other entry shared found there same => ?_, fun key entry found => ?_⟩
  · rw [BoundedMap.lookup_update stored] at found there
    split at found
    · rename_i here
      split at there
      · rename_i also
        exact here.trans also.symm
      · cases found
        exact here.trans (Allowed.fresh allowed there same.symm).symm
    · split at there
      · rename_i also
        cases there
        exact (Allowed.fresh allowed found same).trans also.symm
      · exact sound.unshared key other entry shared found there same
  · rw [BoundedMap.lookup_update stored] at found
    split at found
    · rename_i here
      cases found
      obtain ⟨rfl, rfl⟩ := initConnId_names identified
      exact here.symm
    · exact sound.named key entry found

/-- Neither identities nor sockets change. -/
theorem Sound.kept {after : Tables} (sound : tables.Sound)
    (entries : ∀ key entry, after.connMap.lookup key = some entry →
      ∃ before, tables.connMap.lookup key = some before ∧ before.sk = entry.sk ∧ before.id = entry.id) : after.Sound where
  unshared key other entry shared found there same := by
    obtain ⟨first, foundFirst, firstSk, _⟩ := entries key entry found
    obtain ⟨second, foundSecond, secondSk, _⟩ := entries other shared there
    exact sound.unshared key other first second foundFirst foundSecond (firstSk.trans (same.trans secondSk.symm))
  named key entry found := by
    obtain ⟨before, there, _, same⟩ := entries key entry found
    exact same ▸ sound.named key before there

theorem Sound.popped (sound : tables.Sound) (thread : Nat) : (tables.popped thread).Sound :=
  ⟨sound.unshared, sound.named⟩

theorem Sound.close (sound : tables.Sound) (thread : Nat) (ret : UInt64) : (tables.close thread ret).Sound := by
  rw [Tables.close]
  split
  · exact sound
  · dsimp only
    split
    · exact sound.popped thread
    · split
      · exact sound.popped thread
      · refine sound.kept fun other entry found => ?_
        rw [BoundedMap.lookup_delete] at found
        split at found
        · cases found
        · exact ⟨entry, found, rfl, rfl⟩

theorem Sound.processRdwrMsg (sound : tables.Sound) (key : ConnKey) (event : Event) :
    (tables.processRdwrMsg key event).1.Sound := by
  rw [Tables.processRdwrMsg]
  split
  · exact sound
  · split
    · exact sound
    · refine sound.kept fun other entry found => ?_
      rw [BoundedMap.lookup_modify] at found
      split at found
      · rename_i same
        obtain ⟨before, there, rfl⟩ := Option.map_eq_some_iff.mp found
        exact ⟨before, same ▸ there, rfl, rfl⟩
      · exact ⟨entry, found, rfl, rfl⟩

theorem Sound.returned (sound : tables.Sound) (thread : Nat) (event : Event) : (tables.returned thread event).1.Sound := by
  rw [Tables.returned]
  split
  · exact sound
  · exact (sound.popped thread).processRdwrMsg _ event

theorem Sound.sampledOn (sound : tables.Sound) (sk : UInt64) (event : Event) : (tables.sampled sk event).Sound :=
  sound.kept fun _ entry found => ⟨entry, found, rfl, rfl⟩

theorem Sound.step (sound : tables.Sound) (allowed : tables.Allowed event) : (tables.step event).1.Sound := by
  cases event with
  | accept tgid fd sock now => exact sound.accept allowed
  | enter thread key pushed =>
      simp only [Tables.step, Tables.enter]
      split
      · cases pushed with
        | true => exact ⟨sound.unshared, sound.named⟩
        | false => exact sound.popped thread
      · exact sound
  | close thread ret => exact sound.close thread ret
  | read thread tsNsec data readable => exact sound.returned thread _
  | write thread count => exact sound.returned thread _
  | newDataSent sk skb => exact sound.sampledOn sk _
  | skbDelivered sk skb endTsNsec => exact sound.sampledOn sk _
  | recvmsg sk thread queued => exact sound.sampledOn sk _

/-- Everything sent to user space. -/
def sent (tables : Tables) : List KernelEvent → List MsgEvent
  | [] => []
  | event :: rest => (tables.step event).2.toList ++ (tables.step event).1.sent rest

def after (tables : Tables) (events : List KernelEvent) : Tables := events.foldl (fun tables event => (tables.step event).1) tables

abbrev Admits (tables : Tables) (events : List KernelEvent) : Prop :=
  Allows (fun tables event => (tables.step event).1) Allowed tables events

theorem Sound.after (sound : tables.Sound) {events : List KernelEvent} (admitted : tables.Admits events) :
    (tables.after events).Sound :=
  Runs.invariant Sound admitted.runs sound fun _ _ _ taken sound => taken.2 ▸ sound.step taken.1

end Tables

/-- The maps after events of the kernel, from the start of the probe. -/
def reached (events : List KernelEvent) : Tables := Tables.empty.after events

/-- One request on socket 7, answered, and a read a period later; the
neighbour's threads are in their own calls meanwhile, one of which the match map
has no room for and one of which closes its descriptor. -/
def interleaved : List KernelEvent :=
  [.enter 2 ⟨100, 4⟩ false, .enter 1 ⟨100, 4⟩ true, .enter 0 ⟨100, 3⟩ true, .recvmsg 7 0 (some 10), .recvmsg 8 1 (some 12), .read 1 18 ping true,
    .read 0 20 ping true, .enter 0 ⟨100, 3⟩ true, .enter 1 ⟨100, 4⟩ true, .write 0 7, .newDataSent 7 1, .write 1 7,
    .skbDelivered 7 1 50, .enter 0 ⟨100, 3⟩ true, .recvmsg 7 0 (some 60), .enter 1 ⟨100, 4⟩ true, .read 0 70 ping true,
    .close 1 0, .enter 0 ⟨100, 3⟩ true, .read 0 5000000070 ping true]

end GalaGopher.Ebpf.Ksli
