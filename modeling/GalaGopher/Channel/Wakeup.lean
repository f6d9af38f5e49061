import GalaGopher.Data.Runs
import GalaGopher.Channel.Ring

namespace GalaGopher.Channel

open Data

/-! The ring with its trigger: an `eventfd` in blocking mode, counting the
writes since it was last read.

A producer puts and then writes 1 (`RunExtendProbe`, `__wrap_fprintf`,
`IngressData2Egress`); a put that finds the ring full writes nothing.  The
consumer waits, reads the counter away and gets until a get fails
(`IngressDataProcesssInput`, `EgressDataProcesssInput`). -/

variable {ι α : Type}

inductive Drain where
  | waiting
  | woken
  | draining
deriving DecidableEq

structure Triggered (ι α : Type) where
  fifo : Fifo α
  counter : Nat
  writing : ι → Bool
  consumer : Drain

def Triggered.start (fifo : Fifo α) : Triggered ι α :=
  { fifo, counter := 0, writing := fun _ => false, consumer := .waiting }

/-- The largest value of an `eventfd`; a write that would pass it blocks. -/
def maxCounter : Nat := 2 ^ 64 - 2

inductive Signal (ι α : Type) where
  | put (producer : ι) (element : α)
  | write (producer : ι)
  | wait
  | read
  | get (elements : α)

variable [DecidableEq ι]

def setWriting (writing : ι → Bool) (producer : ι) (value : Bool) : ι → Bool :=
  fun other => if other = producer then value else writing other

inductive Trigger : Triggered ι α → Signal ι α → Triggered ι α → Prop where
  | put {state : Triggered ι α} {producer : ι} {element : α} {after : Fifo α} {ret : UInt32}
      (free : state.writing producer = false) (put : fifoPut state.fifo element = some (after, ret)) :
      Trigger state (.put producer element)
        { state with fifo := after, writing := setWriting state.writing producer (ret = 0) }
  | write {state : Triggered ι α} {producer : ι} (writing : state.writing producer = true)
      (room : state.counter + 1 ≤ maxCounter) :
      Trigger state (.write producer)
        { state with counter := state.counter + 1, writing := setWriting state.writing producer false }
  | wait {state : Triggered ι α} (waiting : state.consumer = .waiting) (ready : 0 < state.counter) :
      Trigger state .wait { state with consumer := .woken }
  | read {state : Triggered ι α} (woken : state.consumer = .woken) (ready : 0 < state.counter) :
      Trigger state .read { state with counter := 0, consumer := .draining }
  | get {state : Triggered ι α} {elements obtained : α} {after : Fifo α} {ret : UInt32}
      (draining : state.consumer = .draining) (got : fifoGet state.fifo elements = some (after, obtained, ret)) :
      Trigger state (.get elements)
        { state with fifo := after, consumer := if ret = 0 then .draining else .waiting }

/-- Outside its drain the consumer leaves no element without a trigger, pending
or about to be. -/
structure AlertAt (state : Triggered ι α) (items : List α) : Prop where
  represents : Represents state.fifo items
  pending : state.consumer ≠ .draining →
    items = [] ∨ 0 < state.counter ∨ ∃ producer, state.writing producer = true

def Alert (state : Triggered ι α) : Prop := ∃ items, AlertAt state items

namespace AlertAt

variable {state : Triggered ι α} {items : List α}

theorem put (alert : AlertAt state items) {producer : ι} {element : α} {after : Fifo α} {ret : UInt32}
    (free : state.writing producer = false) (put : fifoPut state.fifo element = some (after, ret)) :
    Alert { state with fifo := after, writing := setWriting state.writing producer (ret = 0) } := by
  rcases Nat.lt_or_ge items.length state.fifo.size.toNat with room | noRoom
  · obtain ⟨stored, equal, -, represents⟩ := fifoPut_stored alert.represents room element
    rw [equal] at put
    cases put
    exact ⟨items ++ [element], represents, fun _ => .inr (.inr ⟨producer, by simp [setWriting]⟩)⟩
  · have full := Nat.le_antisymm alert.represents.fits noRoom
    rw [fifoPut_full alert.represents full] at put
    cases put
    have same : setWriting state.writing producer ((-1 : UInt32) = 0) = state.writing := by
      funext other
      by_cases equal : other = producer
      · simp [setWriting, equal, free]
      · simp [setWriting, equal]
    rw [same]
    exact ⟨items, alert⟩

omit [DecidableEq ι] in
theorem get (alert : AlertAt state items) {elements obtained : α} {after : Fifo α} {ret : UInt32}
    (got : fifoGet state.fifo elements = some (after, obtained, ret)) :
    Alert { state with fifo := after, consumer := if ret = 0 then .draining else .waiting } := by
  obtain ⟨represents, -⟩ := alert
  cases items with
  | nil =>
      rw [fifoGet_empty represents] at got
      cases got
      exact ⟨[], represents, fun _ => .inl rfl⟩
  | cons element rest =>
      obtain ⟨next, equal, -, left⟩ := fifoGet_obtained represents elements
      rw [equal] at got
      cases got
      exact ⟨rest, left, fun outside => absurd rfl outside⟩

end AlertAt

theorem Trigger.alert {state after : Triggered ι α} {signal : Signal ι α} (step : Trigger state signal after)
    (alert : Alert state) : Alert after := by
  obtain ⟨items, alert⟩ := alert
  cases step with
  | put free put => exact alert.put free put
  | write writing room => exact ⟨items, alert.represents, fun _ => .inr (.inl (Nat.succ_pos _))⟩
  | wait waiting ready => exact ⟨items, alert.represents, fun _ => .inr (.inl ready)⟩
  | read woken ready => exact ⟨items, alert.represents, fun outside => absurd rfl outside⟩
  | get draining got => exact alert.get got

theorem no_lost_wakeup {null : α} {size : UInt32} {fifo : Fifo α} {signals : List (Signal ι α)}
    {last : Triggered ι α} (created : fifoCreate null size = some fifo)
    (run : Runs Trigger (Triggered.start fifo) signals last) (waiting : last.consumer = .waiting)
    (silent : last.counter = 0) (settled : ∀ producer, last.writing producer = false) :
    Represents last.fifo [] ∧ ∀ elements, fifoGet last.fifo elements = some (last.fifo, elements, -1) := by
  have start : Alert (Triggered.start fifo : Triggered ι α) :=
    ⟨[], (fifoCreate_represents created).2, fun _ => .inl rfl⟩
  obtain ⟨items, alert⟩ := run.invariant Alert start fun _ _ _ step alert => step.alert alert
  have outside : last.consumer ≠ .draining := by
    rw [waiting]
    exact Drain.noConfusion
  rcases alert.pending outside with none | ready | writing
  · subst none
    exact ⟨alert.represents, fifoGet_empty alert.represents⟩
  · omega
  · obtain ⟨producer, writing⟩ := writing
    rw [settled producer] at writing
    cases writing

/-- The write lands after the drain has taken the element; the trigger it
leaves wakes the consumer once more, to an empty ring. -/
theorem no_lost_wakeup_late_write :
    Represents { buffer := [7, 8], size := 2, «in» := 2, out := 2 } ([] : List Nat) ∧
      ∀ elements, fifoGet { buffer := [7, 8], size := 2, «in» := 2, out := 2 } elements =
        some ({ buffer := [7, 8], size := 2, «in» := 2, out := 2 }, elements, -1) := by
  have first : Runs Trigger (Triggered.start { buffer := [0, 0], size := 2, «in» := 0, out := 0 } : Triggered Unit Nat)
      [.put () 7, .write (), .wait, .put () 8, .read]
      { fifo := { buffer := [7, 8], size := 2, «in» := 2, out := 0 }, counter := 0
        writing := setWriting (setWriting (setWriting (fun _ => false) () true) () false) () true
        consumer := .draining } :=
    .next (.next (.next (.next (.next .start (.put rfl rfl)) (.write rfl (by decide))) (.wait rfl (by decide)))
      (.put rfl rfl)) (.read rfl (by decide))
  have second := Runs.next (.next (.next (.next first (@Trigger.get _ _ _ _ 0 _ _ _ rfl rfl)) (@Trigger.get _ _ _ _ 0 _ _ _ rfl rfl))
    (@Trigger.write _ _ _ _ () rfl (by decide))) (@Trigger.get _ _ _ _ 0 _ _ _ rfl rfl)
  have third := Runs.next (.next (.next second (.wait rfl (by decide))) (.read rfl (by decide)))
    (@Trigger.get _ _ _ _ 0 _ _ _ rfl rfl)
  exact @no_lost_wakeup _ _ _ 0 2 _ _ _ rfl third rfl rfl fun _ => rfl

end GalaGopher.Channel
