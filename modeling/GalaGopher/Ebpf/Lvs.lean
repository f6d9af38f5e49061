import GalaGopher.Data.BoundedMap
import GalaGopher.Data.Runs
import Mathlib.Logic.Function.Basic

namespace GalaGopher.Ebpf.Lvs

open Data

/-- `struct ip`, as it lies in memory: the first four bytes are `in`. -/
abbrev Ip := Vector UInt8 16

def Ip.zero : Ip := .replicate 16 0

/-- The four bytes of `in`, into an address that is clear. -/
def Ip.in4 (source : Ip) : Ip := .ofFn fun place => if place.val < 4 then source.get place else 0

def afInet : UInt16 := 2

def afInet6 : UInt16 := 10

structure LinkKey where
  cAddr : Ip := .zero
  vAddr : Ip := .zero
  sAddr : Ip := .zero
  cPort : UInt16 := 0
  vPort : UInt16 := 0
  sPort : UInt16 := 0
  family : UInt16 := 0
deriving DecidableEq

/-- The fields of `struct link_value` that are written or read anywhere. -/
structure LinkValue where
  lPort : UInt16 := 0
  lAddr : Ip := .zero
  protocol : UInt16 := 0
  state : UInt16 := 0
  closeTs : UInt64 := 0
deriving DecidableEq

/-- `struct ip_vs_conn` and `struct ip_vs_conn_fnat` -/
inductive Layout where
  | conn
  | fnat
deriving DecidableEq

/-- What the probes read at a connection through one of the layouts; the first
has no local end. -/
structure ConnFields where
  af : UInt16 := 0
  daddr : Ip := .zero
  caddr : Ip := .zero
  vaddr : Ip := .zero
  laddr : Ip := .zero
  dport : UInt16 := 0
  cport : UInt16 := 0
  vport : UInt16 := 0
  lport : UInt16 := 0

def ipvsMaxEntries : Nat := 8192

/-- `IP_VS_CONN_F_FWD_MASK` -/
def fwdMask : UInt32 := 7

/-- `IP_VS_CONN_F_LOCALNODE` -/
def localnode : UInt8 := 1

/-- `IP_VS_CONN_FULLNAT` -/
def fullnat : UInt8 := 5

/-- `IP_VS_TCP_S_CLOSE` -/
def tcpSClose : UInt16 := 6

/-- An address of the family, into one that is clear. -/
def readAddr (family : UInt16) (source : Ip) : Ip :=
  if family = afInet then source.in4 else if family = afInet6 then source else .zero

/-- The key, the address and the port of the local end. -/
def ipvsStateGetKey (p : ConnFields) : LinkKey × Ip × UInt16 :=
  let key : LinkKey :=
    { family := p.af
      sAddr := readAddr p.af p.daddr
      cAddr := readAddr p.af p.caddr
      vAddr := readAddr p.af p.vaddr
      sPort := p.dport
      cPort := p.cport
      vPort := p.vport }
  (key, key.vAddr, key.vPort)

def ipvsFnatStateGetKey (p : ConnFields) : LinkKey × Ip × UInt16 :=
  let key : LinkKey :=
    { family := p.af
      sAddr := readAddr p.af p.daddr
      cAddr := readAddr p.af p.caddr
      vAddr := readAddr p.af p.vaddr
      sPort := p.dport
      cPort := p.cport
      vPort := p.vport }
  (key, readAddr p.af p.laddr, p.lport)

def Layout.stateGetKey : Layout → ConnFields → LinkKey × Ip × UInt16
  | .conn => ipvsStateGetKey
  | .fnat => ipvsFnatStateGetKey

/-- The forwarding mode of `ip_vs_conn_new`, whose low byte goes to the map. -/
def fwdFlags (flags connFlags : UInt32) : UInt8 := ((flags ||| connFlags) &&& fwdMask).toUInt8

def layoutOf (flags : UInt8) : Layout := if flags < fullnat then .conn else .fnat

/-- The maps of the probe; of `lvs_flag_map` only the entry of
`IPVS_FLAGS_KEY_VAL` is used. -/
structure LvsProbe where
  flag : Option UInt8
  linkMap : BoundedMap LinkKey LinkValue ipvsMaxEntries

namespace LvsProbe

variable (probe : LvsProbe)

/-- The layout by which a connection is read. -/
def layoutInUse : Layout := layoutOf (probe.flag.getD localnode)

def ipVsConnNew (flags connFlags : UInt32) : LvsProbe := { probe with flag := some (fwdFlags flags connFlags) }

/-- `memory` is the connection returned, as each layout reads it. -/
def ipVsConnNewReturn (memory : Layout → ConnFields) : LvsProbe :=
  let layout := probe.layoutInUse
  let (key, lAddr, lPort) := layout.stateGetKey (memory layout)
  match probe.linkMap.update key { lAddr, lPort } with
  | some linkMap => { probe with linkMap }
  | none => probe

def ipVsConnExpire (memory : Layout → ConnFields) (now : UInt64) : LvsProbe :=
  let layout := probe.layoutInUse
  let (key, lAddr, lPort) := layout.stateGetKey (memory layout)
  match probe.linkMap.lookup key with
  | none => probe
  | some _ =>
      { probe with
        linkMap := probe.linkMap.modify key fun value =>
          { value with state := tcpSClose, closeTs := now, lAddr, lPort } }

end LvsProbe

abbrev Thread := Nat

abbrev ConnPtr := UInt64

inductive Event where
  | new (thread : Thread) (flags connFlags : UInt32)
  | newReturn (thread : Thread) (ptr : ConnPtr) (memory : Layout → ConnFields)
  | expire (ptr : ConnPtr) (memory : Layout → ConnFields) (now : UInt64)

/-- A connection: the layout it was created with, its own key, and the key it
was opened under. -/
structure Conn where
  own : Layout
  key : LinkKey
  opened : LinkKey

/-- The probe beside the calls of `ip_vs_conn_new` under way, with the layout of
their connections, and the connections that came of them. -/
structure Traced where
  probe : LvsProbe
  calls : Thread → Option Layout
  conns : ConnPtr → Option Conn

namespace Traced

def start : Traced := { probe := { flag := none, linkMap := .empty }, calls := fun _ => none, conns := fun _ => none }

def step (traced : Traced) : Event → Traced
  | .new thread flags connFlags =>
      { traced with
        probe := traced.probe.ipVsConnNew flags connFlags
        calls := Function.update traced.calls thread (some (layoutOf (fwdFlags flags connFlags))) }
  | .newReturn thread ptr memory =>
      let layout := traced.probe.layoutInUse
      let conn := (traced.calls thread).map fun own =>
        { own, key := (own.stateGetKey (memory own)).1, opened := (layout.stateGetKey (memory layout)).1 : Conn }
      { probe := traced.probe.ipVsConnNewReturn memory
        calls := Function.update traced.calls thread none
        conns := Function.update traced.conns ptr conn }
  | .expire _ memory now => { traced with probe := traced.probe.ipVsConnExpire memory now }

/-- A thread is in one call at a time, and a connection keeps its addresses and
ports, which its own layout finds.  What the other layout finds is any. -/
def Possible (traced : Traced) : Event → Prop
  | .new thread _ _ => traced.calls thread = none
  | .newReturn thread _ _ => (traced.calls thread).isSome
  | .expire ptr memory _ =>
      ∃ conn, traced.conns ptr = some conn ∧ (conn.own.stateGetKey (memory conn.own)).1 = conn.key

/-- The expiry of a connection reads it as it was created, and marks the entry
it was opened under and no other. -/
structure Closes (traced : Traced) (conn : Conn) (memory : Layout → ConnFields) (now : UInt64) : Prop where
  layout : traced.probe.layoutInUse = conn.own
  key : (traced.probe.layoutInUse.stateGetKey (memory traced.probe.layoutInUse)).1 = conn.opened
  marked : ∃ value, (traced.probe.ipVsConnExpire memory now).linkMap.lookup conn.opened = some value ∧
    value.state = tcpSClose
  others : ∀ other, other ≠ conn.opened →
    (traced.probe.ipVsConnExpire memory now).linkMap.lookup other = traced.probe.linkMap.lookup other

/-- An entry under `key` finds room. -/
def HasRoom (traced : Traced) (key : LinkKey) : Prop :=
  (traced.probe.linkMap.lookup key).isSome ∨ traced.probe.linkMap.entries.length < ipvsMaxEntries

/-- The slot holds a mode of the connection's own kind as it is created, the
map has room for it, and the slot holds one of its kind again as it expires. -/
def Unmixed (traced : Traced) : Event → Prop
  | .new .. => True
  | .newReturn thread _ memory =>
      traced.calls thread = some traced.probe.layoutInUse ∧
        traced.HasRoom (traced.probe.layoutInUse.stateGetKey (memory traced.probe.layoutInUse)).1
  | .expire ptr _ _ => ∀ conn, traced.conns ptr = some conn → traced.probe.layoutInUse = conn.own

variable {traced : Traced} {event : Event}

/-- Connections are opened under their own keys, and the entries stay. -/
def Opened (traced : Traced) : Prop :=
  ∀ ptr conn, traced.conns ptr = some conn →
    conn.opened = conn.key ∧ (traced.probe.linkMap.lookup conn.opened).isSome

theorem start_opened : start.Opened := by
  intro ptr conn found
  cases found

theorem lookup_newReturn (probe : LvsProbe) (memory : Layout → ConnFields) {key : LinkKey}
    (present : (probe.linkMap.lookup key).isSome) :
    ((probe.ipVsConnNewReturn memory).linkMap.lookup key).isSome := by
  simp only [LvsProbe.ipVsConnNewReturn]
  split
  case h_1 map updated =>
      rw [BoundedMap.lookup_update updated]
      split
      case isTrue => rfl
      case isFalse => exact present
  case h_2 => exact present

theorem lookup_newReturn_self (memory : Layout → ConnFields)
    (room : traced.HasRoom (traced.probe.layoutInUse.stateGetKey (memory traced.probe.layoutInUse)).1) :
    ((traced.probe.ipVsConnNewReturn memory).linkMap.lookup
      (traced.probe.layoutInUse.stateGetKey (memory traced.probe.layoutInUse)).1).isSome := by
  simp only [LvsProbe.ipVsConnNewReturn]
  split
  case h_1 map updated =>
      rw [BoundedMap.lookup_update updated, if_pos rfl]
      rfl
  case h_2 refused =>
      obtain ⟨absent, full⟩ := (BoundedMap.update_eq_none_iff ..).mp refused
      rcases room with present | room
      · rw [absent] at present
        cases present
      · exact absurd room (Nat.not_lt.mpr full)

theorem lookup_expire (probe : LvsProbe) (memory : Layout → ConnFields) (now : UInt64) (key : LinkKey) :
    ((probe.ipVsConnExpire memory now).linkMap.lookup key).isSome = (probe.linkMap.lookup key).isSome := by
  simp only [LvsProbe.ipVsConnExpire]
  split
  case h_1 => rfl
  case h_2 => exact BoundedMap.isSome_lookup_modify ..

theorem Opened.step (opened : traced.Opened) (unmixed : traced.Unmixed event) : (traced.step event).Opened := by
  cases event with
  | new thread flags connFlags => exact opened
  | newReturn thread ptr memory =>
      obtain ⟨called, room⟩ := unmixed
      intro other conn found
      simp only [Traced.step, Function.update_apply, called, Option.map_some] at found
      split at found
      case isTrue =>
          cases found
          exact ⟨rfl, lookup_newReturn_self memory room⟩
      case isFalse =>
          obtain ⟨same, present⟩ := opened other conn found
          exact ⟨same, lookup_newReturn traced.probe memory present⟩
  | expire ptr memory now =>
      intro other conn found
      obtain ⟨same, present⟩ := opened other conn found
      refine ⟨same, ?_⟩
      simp only [Traced.step, lookup_expire, present]

/-- Up to here no kinds were mixed: then the expiry of a connection closes its
own entry exactly if the slot holds a mode of its kind. -/
theorem expire_closes_iff {events : List Event} {last : Traced}
    (run : Runs (fun traced event after => (traced.Possible event ∧ traced.Unmixed event) ∧ traced.step event = after)
      start events last)
    {ptr : ConnPtr} {memory : Layout → ConnFields} {now : UInt64} (possible : last.Possible (.expire ptr memory now))
    {conn : Conn} (found : last.conns ptr = some conn) :
    last.Closes conn memory now ↔ last.Unmixed (.expire ptr memory now) := by
  have opened : last.Opened := by
    apply run.invariant Opened start_opened
    intro traced event after taken opened
    obtain ⟨⟨_, unmixed⟩, rfl⟩ := taken
    exact opened.step unmixed
  obtain ⟨same, present⟩ := opened ptr conn found
  refine ⟨fun closes other again => ?_, fun unmixed => ?_⟩
  · rw [found] at again
    cases again
    exact closes.layout
  · have layout := unmixed conn found
    obtain ⟨_, again, kept⟩ := possible
    rw [found] at again
    cases again
    have key : (last.probe.layoutInUse.stateGetKey (memory last.probe.layoutInUse)).1 = conn.opened := by
      rw [layout, kept, same]
    obtain ⟨value, held⟩ := Option.isSome_iff_exists.mp present
    have expired : (last.probe.ipVsConnExpire memory now).linkMap = last.probe.linkMap.modify conn.opened fun value =>
        { value with
          state := tcpSClose
          closeTs := now
          lAddr := (last.probe.layoutInUse.stateGetKey (memory last.probe.layoutInUse)).2.1
          lPort := (last.probe.layoutInUse.stateGetKey (memory last.probe.layoutInUse)).2.2 } := by
      simp only [LvsProbe.ipVsConnExpire, key, held]
    refine ⟨layout, key, ?_, fun other different => ?_⟩
    · rw [expired, BoundedMap.lookup_modify_self, held]
      exact ⟨_, rfl, rfl⟩
    · rw [expired, BoundedMap.lookup_modify_of_ne different]

/-- A connection from the client port `cport`, with nothing in the other
layout. -/
def memoryOf (own : Layout) (cport : UInt16) : Layout → ConnFields :=
  fun layout => if layout = own then { af := afInet, cport } else {}

/-- A full-NAT connection, then one that is not. -/
def mixed : List Event :=
  [.new 1 5 0, .newReturn 1 1 (memoryOf .fnat 100), .new 2 0 0, .newReturn 2 2 (memoryOf .conn 200)]

theorem expire_misses_entry :
    ¬ ∀ (events : List Event) (last : Traced),
      Runs (fun traced event after => traced.Possible event ∧ traced.step event = after) start events last →
        ∀ (ptr : ConnPtr) (memory : Layout → ConnFields) (now : UInt64) (conn : Conn),
          last.Possible (.expire ptr memory now) → last.conns ptr = some conn → last.Closes conn memory now := by
  intro closes
  have allowed : Allows step Possible start mixed := ⟨rfl, rfl, rfl, rfl, trivial⟩
  have expired := closes mixed _ allowed.runs 1 (memoryOf .fnat 100) 9 _ ⟨_, rfl, rfl⟩ rfl
  have layout := expired.layout
  cases layout

/-- The first of them. -/
def opening : List Event := mixed.take 2

theorem expire_closes_iff_opening :
    (opening.foldl step start).Closes
        { own := .fnat, key := (ipvsFnatStateGetKey (memoryOf .fnat 100 .fnat)).1,
          opened := (ipvsFnatStateGetKey (memoryOf .fnat 100 .fnat)).1 } (memoryOf .fnat 100) 9 ↔
      (opening.foldl step start).Unmixed (.expire 1 (memoryOf .fnat 100) 9) := by
  have room : (start.step (.new 1 5 0)).HasRoom (ipvsFnatStateGetKey (memoryOf .fnat 100 .fnat)).1 :=
    .inr (by decide)
  have allowed : Allows step (fun traced event => traced.Possible event ∧ traced.Unmixed event) start opening :=
    ⟨⟨rfl, trivial⟩, ⟨rfl, rfl, room⟩, trivial⟩
  exact expire_closes_iff allowed.runs ⟨_, rfl, rfl⟩ rfl

end Traced

end GalaGopher.Ebpf.Lvs
