import GalaGopher.Data.Drain
import GalaGopher.Text.Bytes

namespace GalaGopher.Ebpf.FileProbe

open Data Text

def probeName : Bytes := ascii "file_snoop"

def suspiciousMax : Nat := 100

structure SuspiciousOpKey where
  inode : UInt64
  ts : UInt64
deriving DecidableEq

structure SuspiciousOpVal where
  opType : Int32
  exe : Bytes

abbrev SuspiciousOpMap := BoundedMap SuspiciousOpKey SuspiciousOpVal suspiciousMax

structure SnoopEvt where
  ts : UInt64
  opType : Int32
  file : Bytes
  exe : Bytes

/-- How the calls end that are made for one entry.  A text is formatted by
itself, so that it may not come out, or not as it is. -/
structure Calls where
  lookup : Bool
  command : Bool
  /-- What is read from the pipe, if it opens and has a line. -/
  pipe : Option (Option Bytes)
  formatName : Bytes → Option Bytes
  formatExe : Bytes → Option Bytes
  formatFile : Bytes → Option Bytes

def getFileName (calls : Calls) : Option Bytes :=
  if !calls.command then none
  else
    match calls.pipe with
    | none => none
    | some none => none
    | some (some line) => calls.formatName line

def readEvt (calls : Calls) (nextKey : SuspiciousOpKey) (v : SuspiciousOpVal) : Option SnoopEvt := do
  let fileName ← getFileName calls
  let exe ← calls.formatExe v.exe
  let file ← calls.formatFile fileName
  return { ts := nextKey.ts, opType := v.opType, file, exe }

def evtLine (evt : SnoopEvt) : Bytes :=
  ascii "|" ++ probeName ++ ascii "|" ++ ascii (toString evt.ts.toNat) ++ ascii "|" ++
    ascii (toString evt.opType.toUInt32.toNat) ++ ascii "|" ++ evt.exe ++ ascii "|" ++ evt.file ++ ascii "|\n"

/-- The line printed for an entry; nothing where the loop goes on without
deleting it. -/
def attempt (calls : Nat → SuspiciousOpKey → Calls) (turn : Nat) (nextKey : SuspiciousOpKey)
    (v : Option SuspiciousOpVal) : Option Bytes :=
  match v with
  | none => none
  | some v =>
      if (calls turn nextKey).lookup then (readEvt (calls turn nextKey) nextKey v).map evtLine else none

def startKey : SuspiciousOpKey := ⟨0, 0⟩

/-- The turns of the loop, with the key of each and what it prints, as long as
the fuel lasts. -/
def readProbeData (walk : Enumeration SuspiciousOpKey SuspiciousOpVal suspiciousMax)
    (calls : Nat → SuspiciousOpKey → Calls) (fuel : Nat) (map : SuspiciousOpMap) :
    Option (List (SuspiciousOpKey × Option Bytes) × SuspiciousOpMap) :=
  walk.drain startKey (attempt calls) fuel 0 map

/-- The loop returns, and had each entry in one turn. -/
def DrainsOnce (walk : Enumeration SuspiciousOpKey SuspiciousOpVal suspiciousMax)
    (calls : Nat → SuspiciousOpKey → Calls) (map : SuspiciousOpMap) : Prop :=
  ∃ fuel trace last, readProbeData walk calls fuel map = some (trace, last) ∧
    (trace.map Prod.fst).Perm (map.entries.map Prod.fst)

/-- No call for the entry fails. -/
structure Calls.Succeed (calls : Calls) (v : SuspiciousOpVal) : Prop where
  lookup : calls.lookup
  name : (getFileName calls).isSome
  exe : (calls.formatExe v.exe).isSome
  file : ∀ fileName, getFileName calls = some fileName → (calls.formatFile fileName).isSome

theorem readEvt_isSome_iff (calls : Calls) (nextKey : SuspiciousOpKey) (v : SuspiciousOpVal) :
    (readEvt calls nextKey v).isSome ↔ (getFileName calls).isSome ∧ (calls.formatExe v.exe).isSome ∧
      ∀ fileName, getFileName calls = some fileName → (calls.formatFile fileName).isSome := by
  cases name : getFileName calls with
  | none => simp [readEvt, name]
  | some fileName =>
      cases exe : calls.formatExe v.exe with
      | none => simp [readEvt, name, exe]
      | some exe => cases file : calls.formatFile fileName <;> simp [readEvt, name, exe, file]

theorem attempt_isSome_iff (calls : Nat → SuspiciousOpKey → Calls) (turn : Nat) (nextKey : SuspiciousOpKey)
    (v : SuspiciousOpVal) : (attempt calls turn nextKey (some v)).isSome ↔ (calls turn nextKey).Succeed v := by
  cases found : (calls turn nextKey).lookup with
  | false =>
      have skipped : attempt calls turn nextKey (some v) = none := by simp [attempt, found]
      rw [skipped]
      refine iff_of_false Bool.false_ne_true fun succeed => ?_
      rw [succeed.lookup] at found
      cases found
  | true =>
      have tried : attempt calls turn nextKey (some v) = (readEvt (calls turn nextKey) nextKey v).map evtLine := by
        simp [attempt, found]
      rw [tried, Option.isSome_map, readEvt_isSome_iff]
      exact ⟨fun ⟨name, exe, file⟩ => ⟨found, name, exe, file⟩, fun succeed => ⟨succeed.name, succeed.exe, succeed.file⟩⟩

theorem drains_once_iff (walk : Enumeration SuspiciousOpKey SuspiciousOpVal suspiciousMax)
    (calls : Nat → SuspiciousOpKey → Calls) (map : SuspiciousOpMap) :
    DrainsOnce walk calls map ↔ map.lookup startKey = none ∧
      ∀ (place : Nat) key v, (walk.order map)[place]? = some key → map.lookup key = some v →
        (calls place key).Succeed v := by
  have succeed : walk.AllSucceed (attempt calls) 0 map ↔
      ∀ (place : Nat) key v, (walk.order map)[place]? = some key → map.lookup key = some v →
        (calls place key).Succeed v := by
    constructor
    · intro all place key v here found
      have some := all place key here
      rw [found, Nat.zero_add] at some
      exact (attempt_isSome_iff calls place key v).mp some
    · intro all place key here
      obtain ⟨v, found⟩ := Option.isSome_iff_exists.mp (walk.mem_order_iff.mp (List.mem_of_getElem? here))
      rw [found, Nat.zero_add]
      exact (attempt_isSome_iff calls place key v).mpr (all place key v here found)
  rw [← succeed]
  exact walk.drain_once_iff (attempt calls) 0 map startKey

def oneOperation : SuspiciousOpMap := ⟨[(⟨12, 5⟩, { opType := 1, exe := [] })], by decide, by decide⟩

/-- The calls for a file that is no longer there: nothing is found. -/
def vanished (_ : Nat) (_ : SuspiciousOpKey) : Calls where
  lookup := true
  command := true
  pipe := some none
  formatName := some
  formatExe := some
  formatFile := some

theorem vanished_file_never_ends :
    (∀ fuel, readProbeData .stored vanished fuel oneOperation = none) ∧ ¬DrainsOnce .stored vanished oneOperation := by
  have never : ∀ fuel, readProbeData .stored vanished fuel oneOperation = none := by
    intro fuel
    exact Enumeration.drain_stuck (show Enumeration.stored.next oneOperation startKey = some ⟨12, 5⟩ by decide) (fun _ => rfl) fuel 0
  refine ⟨never, ?_⟩
  rintro ⟨fuel, trace, last, drained, _⟩
  rw [never] at drained
  cases drained

end GalaGopher.Ebpf.FileProbe
